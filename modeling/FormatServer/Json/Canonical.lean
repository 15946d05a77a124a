import FormatServer.Json.Limits
import FormatServer.Text.Hex
import FormatServer.Text.Utf16

/-!
# Canonical text of a value

The form in which structured data is logged: two spaces of indentation per level, keys in the order
of their code points, and ASCII alone, so that equal data always reads the same. Data has no such
text if it lies too deep or has an integer that is too long.
-/

set_option autoImplicit false

namespace FormatServer.Json.Canonical

/-- One code unit as an escape. -/
def escapeUnit (u : UInt16) : List Char := '\\' :: 'u' :: Text.hex 4 u.toNat

/-- One character of a text. -/
def escape (c : Char) : List Char :=
  if c = '"' ∨ c = '\\' then ['\\', c]
  else if c = '\n' then ['\\', 'n']
  else if c = '\r' then ['\\', 'r']
  else if c = '\t' then ['\\', 't']
  else if c = '\x0C' then ['\\', 'f']
  else if c = '\x08' then ['\\', 'b']
  else if 0x20 ≤ c.toNat ∧ c.toNat < 0x7F then [c]
  else (Text.utf16Units c).flatMap escapeUnit

/-- A text between its quotes. -/
def text (s : String) : List Char := '"' :: s.toList.flatMap escape ++ ['"']

/-- The digits of an integer. -/
def integer (n : Int) : List Char :=
  let digits := Nat.toDigits 10 n.natAbs
  if n < 0 then '-' :: digits else digits

/-- A 64-bit number. -/
def real : Number.Binary64 → List Char
  | .finite negative m e => Number.Binary64.finiteText negative m e
  | .infinite negative => (if negative then "-Infinity" else "Infinity").toList
  | .nan => "NaN".toList

/-- A line break and the indentation of a level. -/
def newline (level : Nat) : List Char := '\n' :: List.replicate (2 * level) ' '

/-- Entries of a list or an object, one a line. -/
def lines (level : Nat) : List (List Char) → List Char
  | [] => []
  | [e] => newline level ++ e
  | e :: es => newline level ++ e ++ ',' :: lines level es

/-- Entries between brackets, one a line; brackets alone if there are none. -/
def block (left right : Char) (level : Nat) (entries : List (List Char)) : List Char :=
  if entries.isEmpty then [left, right]
  else left :: lines (level + 1) entries ++ newline level ++ [right]

/-- Entries by key, sorted. -/
def sortByKey {α : Type} (entries : List (String × α)) : List (String × α) :=
  entries.mergeSort fun a b => a.1 ≤ b.1

mutual

/-- A value at a level of indentation. -/
def renderAt (level : Nat) : Json → List Char
  | null => "null".toList
  | bool b => (if b then "true" else "false").toList
  | int n => integer n
  | .real x => Canonical.real x
  | str s => text s
  | arr items => block '[' ']' level (renderItems (level + 1) items)
  | obj fields =>
    block '\x7b' '\x7d' level
      ((sortByKey (renderFields (level + 1) fields)).map fun e => text e.1 ++ ':' :: ' ' :: e.2)

/-- The items of a list. -/
def renderItems (level : Nat) : List Json → List (List Char)
  | [] => []
  | v :: vs => renderAt level v :: renderItems level vs

/-- The keys of an object, each with the text of its value. -/
def renderFields (level : Nat) : List (String × Json) → List (String × List Char)
  | [] => []
  | (k, v) :: fs => (k, renderAt level v) :: renderFields level fs

end

/-- The canonical text of a value, however deep and long it is. -/
def spell (v : Json) : String := String.ofList (renderAt 0 v)

/-- Why a value is not rendered. -/
inductive Excess where
  /-- Containers lie deeper in one another than the stack allows. -/
  | tooDeep
  /-- An integer has too many digits. -/
  | tooLong
  deriving DecidableEq, Repr

/-- The canonical text of a value within limits. Of one that is both too deep and too long it is said
that it is too deep. -/
def render (limits : Limits) (v : Json) : Except Excess String :=
  if v.Fits limits.digits limits.rendering then .ok (spell v)
  else .error (if v.depth ≤ limits.rendering then .tooLong else .tooDeep)

end FormatServer.Json.Canonical
