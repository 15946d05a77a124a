import FormatServer.Text.Blank
import FormatServer.Text.Digit

/-!
# Integers in text

`readInteger?` reads a decimal integer: blanks around it, a sign, digits of any script, and single
underscores between digits are allowed. At most 4300 digits are read.
-/

set_option autoImplicit false

namespace FormatServer.Text

/-- ASCII white space. -/
def isAsciiBlank (c : Char) : Bool := c == ' ' || (0x09 ≤ c.toNat && c.toNat ≤ 0x0D)

/-- A text that is not all ASCII has the blanks of every script turned into spaces. -/
def plainBlanks (cs : List Char) : List Char :=
  if cs.all (·.toNat < 128) then cs
  else cs.map fun c => if 127 ≤ c.toNat && isBlank c then ' ' else c

/-- The digit values of a run of digits with single underscores between them. -/
def digitRun? : List Char → Option (List Nat)
  | [] => none
  | [c] => (digit? c).map ([·])
  | c :: '_' :: cs => do return (← digit? c) :: (← digitRun? cs)
  | c :: cs => do return (← digit? c) :: (← digitRun? cs)

/-- The most digits an integer may have. -/
def maxDigits : Nat := 4300

/-- The value of a run of digits. -/
def natural? (cs : List Char) : Option Nat := do
  let ds ← digitRun? cs
  if ds.length ≤ maxDigits then some (ds.foldl (fun n d => n * 10 + d) 0) else none

/-- The integer that a text stands for. -/
def readInteger? (s : String) : Option Int :=
  match trimBy isAsciiBlank (plainBlanks s.toList) with
  | '-' :: cs => (natural? cs).map fun n => -(n : Int)
  | '+' :: cs => (natural? cs).map (·)
  | cs => (natural? cs).map (·)

end FormatServer.Text
