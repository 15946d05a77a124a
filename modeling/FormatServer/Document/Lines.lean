import FormatServer.Text.Utf16

/-!
# Lines of a text

A text is a sequence of lines, each with the line break that closes it, and a last line without one.
Carriage return and line feed together are one break; each alone is a break too. A position counts
lines, and columns in UTF-16 code units; an offset counts characters.
-/

set_option autoImplicit false

namespace FormatServer

/-- What closes a line. -/
inductive Ending where
  | lineFeed
  | carriageReturn
  | both
  deriving DecidableEq, Repr

/-- The characters of a line break. -/
def Ending.chars : Ending → List Char
  | .lineFeed => ['\n']
  | .carriageReturn => ['\r']
  | .both => ['\r', '\n']

/-- A line with the break that closes it. -/
structure Line where
  content : List Char
  ending : Ending
  deriving DecidableEq, Repr

/-- Content and break of a line. -/
def Line.chars (l : Line) : List Char := l.content ++ l.ending.chars

/-- Number of characters, the break included. -/
def Line.length (l : Line) : Nat := l.content.length + l.ending.chars.length

/-- The closed lines of a text, and the last one. -/
structure Lines where
  closed : List Line
  last : List Char
  deriving DecidableEq, Repr

namespace Lines

/-- A character in front of the first line. -/
def push (c : Char) : Lines → Lines
  | ⟨[], last⟩ => ⟨[], c :: last⟩
  | ⟨l :: ls, last⟩ => ⟨⟨c :: l.content, l.ending⟩ :: ls, last⟩

/-- An empty line in front. -/
def pushLine (e : Ending) (ls : Lines) : Lines := ⟨⟨[], e⟩ :: ls.closed, ls.last⟩

/-- The lines of a text. -/
def ofChars : List Char → Lines
  | [] => ⟨[], []⟩
  | '\r' :: '\n' :: cs => (ofChars cs).pushLine .both
  | '\r' :: cs => (ofChars cs).pushLine .carriageReturn
  | '\n' :: cs => (ofChars cs).pushLine .lineFeed
  | c :: cs => (ofChars cs).push c

/-- The text of the lines. -/
def chars (ls : Lines) : List Char := ls.closed.flatMap Line.chars ++ ls.last

/-- Number of lines. -/
def count (ls : Lines) : Nat := ls.closed.length + 1

/-- The content of every line, the last one included. -/
def contents (ls : Lines) : List (List Char) := ls.closed.map Line.content ++ [ls.last]

/-! ## From offsets to positions -/

/-- Line and column of an offset; one inside a line break is at the end of the line's content. -/
def locate : List Line → List Char → Nat → Nat × Nat
  | [], last, o => (0, Text.utf16Length (last.take o))
  | l :: ls, last, o =>
    if o < l.length then (0, Text.utf16Length (l.content.take o))
    else
      let (line, column) := locate ls last (o - l.length)
      (line + 1, column)

/-! ## From positions to offsets -/

/-- Number of characters before a column; a column inside a character counts the character. -/
def before : List Char → Int → Nat
  | [], _ => 0
  | c :: cs, column => if column ≤ 0 then 0 else before cs (column - Text.units c) + 1

/-- The offset of a column of a line; a line past the last one is at the end of the text. -/
def offset : List Line → List Char → Nat → Int → Nat
  | [], last, 0, column => before last column
  | [], last, _ + 1, _ => last.length
  | l :: _, _, 0, column => before l.content column
  | l :: ls, last, line + 1, column => l.length + offset ls last line column

/-! ## Where lines start -/

/-- The offsets at which the lines start, the first one at `first`. -/
def startsFrom (first : Nat) : List Line → List Nat
  | [] => [first]
  | l :: ls => first :: startsFrom (first + l.length) ls

/-! ## Laws -/

theorem chars_push (c : Char) (ls : Lines) : (ls.push c).chars = c :: ls.chars := by
  obtain ⟨cl, last⟩ := ls
  cases cl <;> simp [push, chars, Line.chars]

theorem chars_pushLine (e : Ending) (ls : Lines) :
    (ls.pushLine e).chars = e.chars ++ ls.chars := by
  simp [pushLine, chars, Line.chars]

theorem chars_ofChars (cs : List Char) : (ofChars cs).chars = cs := by
  fun_induction ofChars cs with
  | case1 => rfl
  | case2 cs ih => simp [chars_pushLine, Ending.chars, ih]
  | case3 cs _ ih => simp [chars_pushLine, Ending.chars, ih]
  | case4 cs ih => simp [chars_pushLine, Ending.chars, ih]
  | case5 c cs _ _ _ ih => simp [chars_push, ih]

end Lines

end FormatServer
