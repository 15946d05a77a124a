import FormatServer.Text.Ranges

/-!
# Blanks

Unicode white space together with the four separators U+001C to U+001F, and trimming.
-/

set_option autoImplicit false

namespace FormatServer.Text

/-- White space, the line and paragraph separators and U+001C to U+001F. -/
def blankRanges : List (Nat × Nat) :=
  [(0x9, 0xD), (0x1C, 0x20), (0x85, 0x85), (0xA0, 0xA0), (0x1680, 0x1680), (0x2000, 0x200A),
   (0x2028, 0x2029), (0x202F, 0x202F), (0x205F, 0x205F), (0x3000, 0x3000)]

/-- A blank of any script. -/
def isBlank (c : Char) : Bool := inRanges blankRanges c

/-- A byte that is ASCII white space. -/
def isBlankByte (b : UInt8) : Bool := b == 0x20 || (0x09 ≤ b && b ≤ 0x0D)

/-- Without the leading and trailing characters that satisfy `p`. -/
def trimBy {α : Type} (p : α → Bool) (cs : List α) : List α :=
  (((cs.dropWhile p).reverse).dropWhile p).reverse

/-- Without trailing blanks. -/
def trimEnd (cs : List Char) : List Char := (cs.reverse.dropWhile isBlank).reverse

/-- Without leading and trailing blanks. -/
def trim (cs : List Char) : List Char := trimBy isBlank cs

end FormatServer.Text
