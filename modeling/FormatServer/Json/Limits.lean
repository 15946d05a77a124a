import FormatServer.Json.Basic
import FormatServer.Text.Integer

/-!
# Limits

Values are read and rendered only so far: an integer may have so many digits in a text, and
containers may lie only so deep in one another, since each of them takes some of the stack. How
much of it is left depends on what is under way already, so that reading and rendering have a room
each.
-/

set_option autoImplicit false

namespace FormatServer

/-- How far values are read and rendered. -/
structure Limits where
  /-- The digits of an integer. -/
  digits : Nat := Text.maxDigits
  /-- The containers in one another where a value is read. -/
  reading : Nat := 1000
  /-- The containers in one another where a value is rendered. -/
  rendering : Nat := 1000
  deriving DecidableEq, Repr, Inhabited

namespace Json

mutual

/-- How many containers lie in one another. -/
def depth : Json → Nat
  | .arr items => depthItems items + 1
  | .obj fields => depthFields fields + 1
  | _ => 0

/-- The depth of the deepest item. -/
def depthItems : List Json → Nat
  | [] => 0
  | v :: vs => max (depth v) (depthItems vs)

/-- The depth of the deepest value of a field. -/
def depthFields : List (String × Json) → Nat
  | [] => 0
  | (_, v) :: fs => max (depth v) (depthFields fs)

end

mutual

/-- The integers in a value. -/
def integers : Json → List Int
  | .int n => [n]
  | .arr items => integersItems items
  | .obj fields => integersFields fields
  | _ => []

/-- The integers in the items. -/
def integersItems : List Json → List Int
  | [] => []
  | v :: vs => integers v ++ integersItems vs

/-- The integers in the values of the fields. -/
def integersFields : List (String × Json) → List Int
  | [] => []
  | (_, v) :: fs => integers v ++ integersFields fs

end

/-- How many digits an integer is written with. -/
def digitCount (n : Int) : Nat := (Nat.toDigits 10 n.natAbs).length

/-- A value with no more than `maxDigits` digits to an integer and no more than `room` containers in
one another. -/
structure Fits (maxDigits room : Nat) (v : Json) : Prop where
  depth_le : v.depth ≤ room
  digits_le : ∀ n ∈ v.integers, digitCount n ≤ maxDigits

instance (maxDigits room : Nat) (v : Json) : Decidable (Fits maxDigits room v) :=
  decidable_of_iff (v.depth ≤ room ∧ ∀ n ∈ v.integers, digitCount n ≤ maxDigits)
    ⟨fun h => ⟨h.1, h.2⟩, fun h => ⟨h.1, h.2⟩⟩

end Json

end FormatServer
