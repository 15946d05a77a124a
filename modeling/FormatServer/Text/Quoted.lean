import FormatServer.Text.Hex
import FormatServer.Text.Printable

/-!
# Quoted text

How a message shows a text it reports: in single quotes, or in double quotes where the text holds
a single quote and no double one. The backslash, the quote and unprintable characters are escaped.
-/

set_option autoImplicit false

namespace FormatServer.Text

/-- The quote around a text. -/
def quoteFor (cs : List Char) : Char :=
  if cs.contains '\'' && !cs.contains '"' then '"' else '\''

/-- One character between the quotes `q`. -/
def quoteChar (q c : Char) : List Char :=
  if c = q ∨ c = '\\' then ['\\', c]
  else if c = '\n' then ['\\', 'n']
  else if c = '\r' then ['\\', 'r']
  else if c = '\t' then ['\\', 't']
  else if isPrintable c then [c]
  else if c.toNat ≤ 0xFF then '\\' :: 'x' :: hex 2 c.toNat
  else if c.toNat ≤ 0xFFFF then '\\' :: 'u' :: hex 4 c.toNat
  else '\\' :: 'U' :: hex 8 c.toNat

/-- The quoted form of a text. -/
def quote (cs : List Char) : List Char :=
  let q := quoteFor cs
  q :: cs.flatMap (quoteChar q) ++ [q]

/-- The quoted form of a string. -/
def quoted (s : String) : String := String.ofList (quote s.toList)

end FormatServer.Text
