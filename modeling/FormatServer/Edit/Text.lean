import FormatServer.Document.Snapshot
import FormatServer.Edit.Span

/-!
# Text edits

A span edit in the positions of a document. No position points between a carriage return and its
line feed, so a span that starts or stops there is widened over the pair.
-/

set_option autoImplicit false

namespace FormatServer

/-- Replace the text in a range. -/
structure TextEdit where
  range : Range
  newText : String
  deriving DecidableEq, Repr, Inhabited

/-- The offset lies between a carriage return and its line feed. -/
def splitsBreak (text : List Char) (offset : Nat) : Bool :=
  0 < offset && text[offset - 1]? = some '\r' && text[offset]? = some '\n'

/-- The edit widened so that neither end splits a line break. -/
def Span.widen (text : List Char) (e : Span) : Span :=
  let e := if splitsBreak text e.start then ⟨e.start - 1, e.stop, '\r' :: e.text⟩ else e
  if splitsBreak text e.stop then ⟨e.start, e.stop + 1, e.text ++ ['\n']⟩ else e

namespace TextEdit

/-- A span edit as an edit of a document. -/
def ofSpan (d : Snapshot) (e : Span) : TextEdit :=
  ⟨d.rangeOf e.start e.stop, String.ofList e.text⟩

/-- The smallest span edit that turns the text of a document into `candidate`, widened to offsets
that have positions. -/
def between (d : Snapshot) (candidate : String) : TextEdit :=
  ofSpan d ((Span.between d.chars candidate.toList).widen d.chars)

/-- An edit that changes nothing. -/
def isEmpty (e : TextEdit) : Bool := e.newText = "" && e.range.start = e.range.stop

/-- The text after a client has applied the edit. -/
def apply (e : TextEdit) (d : Snapshot) : List Char :=
  d.chars.take (d.offsetAt e.range.start) ++ e.newText.toList ++
    d.chars.drop (d.offsetAt e.range.stop)

end TextEdit

end FormatServer
