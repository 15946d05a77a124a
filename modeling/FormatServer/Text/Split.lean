/-!
# Splitting at a separator
-/

set_option autoImplicit false

namespace FormatServer.Text

/-- The parts of a list between the members that equal `sep`; `n` separators make `n + 1` parts. -/
def splitAtEach {α : Type} [DecidableEq α] (sep : α) : List α → List (List α)
  | [] => [[]]
  | c :: cs =>
    if c = sep then [] :: splitAtEach sep cs
    else
      match splitAtEach sep cs with
      | [] => [[c]]
      | p :: ps => (c :: p) :: ps

theorem splitAtEach_ne_nil {α : Type} [DecidableEq α] (sep : α) (cs : List α) :
    splitAtEach sep cs ≠ [] := by
  cases cs with
  | nil => simp [splitAtEach]
  | cons c cs =>
    rw [splitAtEach]
    split
    · simp
    · split <;> simp

/-- The part before the first member that equals `sep` and the part after it, if there is one. -/
def cut? {α : Type} [DecidableEq α] (sep : α) : List α → Option (List α × List α)
  | [] => none
  | c :: cs =>
    if c = sep then some ([], cs) else (cut? sep cs).map fun (a, b) => (c :: a, b)

/-- The part before the first separator, and the part after it or nothing. -/
def cut {α : Type} [DecidableEq α] (sep : α) (cs : List α) : List α × List α :=
  (cut? sep cs).getD (cs, [])

end FormatServer.Text
