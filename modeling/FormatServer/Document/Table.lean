import FormatServer.Document.Snapshot

/-!
# The line table

The offsets at which the lines of a document start, found in one scan from left to right. Where the
content of a line ends is not kept but found by looking back from the start of the next line. Line
numbers and columns can be read off the table and the text.
-/

set_option autoImplicit false

namespace FormatServer

/-- The part of a text between two bounds; a negative one counts from the end of the text. -/
def Text.slice (cs : List Char) (start stop : Int) : List Char :=
  (cs.take (bound stop)).drop (bound start)
where
  /-- A bound as an offset. -/
  bound (i : Int) : Nat := (if i < 0 then i + cs.length else i).toNat

/-- The offsets behind the line breaks of a text that begins at `offset`. -/
def Lines.breakStops (offset : Nat) : List Char → List Nat
  | [] => []
  | '\r' :: '\n' :: cs => (offset + 2) :: breakStops (offset + 2) cs
  | '\r' :: cs => (offset + 1) :: breakStops (offset + 1) cs
  | '\n' :: cs => (offset + 1) :: breakStops (offset + 1) cs
  | _ :: cs => breakStops (offset + 1) cs

namespace Snapshot

/-- The offsets at which the lines start. -/
def lineStarts (d : Snapshot) : List Nat := 0 :: Lines.breakStops 0 d.chars

/-- The offset at which a line starts; the end of the text for a line past the last one. -/
def lineStart (d : Snapshot) (line : Nat) : Nat := d.lineStarts[line]?.getD d.chars.length

/-- The offset at which the content of a line ends. -/
def lineEnd (d : Snapshot) (line : Nat) : Nat :=
  match d.lineStarts[line + 1]? with
  | some next => if Text.slice d.chars (next - 2) next = ['\r', '\n'] then next - 2 else next - 1
  | none => d.chars.length

/-- The last line that starts at an offset or before it. -/
def lineOf (d : Snapshot) (offset : Nat) : Nat := d.lineStarts.countP (· ≤ offset) - 1

/-- The text of a line without its break. -/
def lineContent (d : Snapshot) (line : Nat) : List Char :=
  Text.slice d.chars (d.lineStart line) (d.lineEnd line)

/-- The break that closes a line; the last line has none. -/
def lineBreak (d : Snapshot) (line : Nat) : List Char :=
  Text.slice d.chars (d.lineEnd line) (d.lineStart (line + 1))

end Snapshot

end FormatServer
