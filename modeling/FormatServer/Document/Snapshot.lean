import FormatServer.Document.Lines
import FormatServer.Document.Position
import FormatServer.Uri.Basic

/-!
# Document snapshots

The text of a document as it was when a request arrived. Offsets count characters unless they are
named for UTF-16.
-/

set_option autoImplicit false

namespace FormatServer

/-- The language of a document that no language is known of. -/
def plainText : String := "plaintext"

structure Snapshot where
  uri : String
  text : String
  languageId : String := plainText
  version : Option Int := none
  deriving DecidableEq, Repr, Inhabited

namespace Snapshot

/-- A snapshot of an open document; an empty or missing language is plain text. -/
def ofOpenDocument (uri text : String) (languageId? : Option String) (version : Option Int) :
    Snapshot :=
  ⟨uri, text, if languageId?.getD "" = "" then plainText else languageId?.getD "", version⟩

def chars (d : Snapshot) : List Char := d.text.toList

def lines (d : Snapshot) : Lines := Lines.ofChars d.chars

def lineCount (d : Snapshot) : Nat := d.lines.count

/-- A document that lies in the file system. -/
def isFile (d : Snapshot) : Bool := "file:".toList.isPrefixOf d.uri.toList

/-- The file system path of a file, the path of the URI for anything else. -/
def path (d : Snapshot) : Except Fault String :=
  if d.isFile then Uri.toPath d.uri
  else (Uri.parse d.uri).map fun u => String.ofList u.path

/-- An offset moved into the text. -/
def clamp (d : Snapshot) (offset : Int) : Nat := min offset.toNat d.chars.length

/-- The position of an offset. -/
def positionAt (d : Snapshot) (offset : Int) : Position :=
  let ls := d.lines
  let (line, column) := Lines.locate ls.closed ls.last (d.clamp offset)
  ⟨line, column⟩

/-- The offset of a position, the nearest one for a position outside the text. -/
def offsetAt (d : Snapshot) (p : Position) : Nat :=
  if p.line < 0 then 0
  else
    let ls := d.lines
    Lines.offset ls.closed ls.last p.line.toNat p.character

/-- The offset of a position in UTF-16 code units. -/
def utf16OffsetAt (d : Snapshot) (p : Position) : Nat :=
  Text.utf16Length (d.chars.take (d.offsetAt p))

/-- The range between two offsets. -/
def rangeOf (d : Snapshot) (start stop : Int) : Range := ⟨d.positionAt start, d.positionAt stop⟩

/-- The range of the whole text. -/
def fullRange (d : Snapshot) : Range := d.rangeOf 0 d.chars.length

end Snapshot

end FormatServer
