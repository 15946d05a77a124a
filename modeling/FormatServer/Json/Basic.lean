import FormatServer.Number.Binary64

/-!
# JSON values

Settings, options and answers of the formatting engine pass through as JSON values. Integers are of
any size and kept apart from other numbers; an object keeps its fields in the order in which
their keys first appeared.
-/

set_option autoImplicit false

namespace FormatServer

inductive Json where
  | null
  | bool (b : Bool)
  | int (n : Int)
  | real (x : Number.Binary64)
  | str (s : String)
  | arr (items : List Json)
  | obj (fields : List (String × Json))
  deriving Inhabited

/-- The fields of an object. -/
abbrev Fields := List (String × Json)

namespace Fields

/-- The value of a key. -/
def get? (fields : Fields) (key : String) : Option Json := fields.lookup key

/-- Sets the value of a key, in place if the key is there and at the end if it is not. -/
def set : Fields → String → Json → Fields
  | [], key, v => [(key, v)]
  | (k, w) :: fs, key, v => if k = key then (k, v) :: fs else (k, w) :: set fs key v

/-- Sets every field of `updates` in turn. -/
def merge (fields updates : Fields) : Fields :=
  updates.foldl (fun acc f => set acc f.1 f.2) fields

/-- The fields set one after another: a repeated key keeps its place and its last value. -/
def ofPairs (pairs : Fields) : Fields := merge [] pairs

theorem get?_cons (k : String) (w : Json) (fs : Fields) (key : String) :
    get? ((k, w) :: fs) key = if key = k then some w else get? fs key := by
  by_cases h : key = k
  · simp [get?, h]
  · have h' : (key == k) = false := by simpa using h
    simp [get?, List.lookup_cons, h, h']

theorem get?_set_self (fields : Fields) (key : String) (v : Json) :
    (fields.set key v).get? key = some v := by
  induction fields with
  | nil => simp [set, get?_cons]
  | cons f fs ih =>
    obtain ⟨k, w⟩ := f
    by_cases h : k = key
    · simp [set, h, get?_cons]
    · have h' : ¬key = k := fun e => h e.symm
      rw [set, if_neg h, get?_cons, if_neg h', ih]

theorem get?_set_of_ne {key other : String} (h : other ≠ key) (fields : Fields) (v : Json) :
    (fields.set key v).get? other = fields.get? other := by
  induction fields with
  | nil => simp [set, get?_cons, h]
  | cons f fs ih =>
    obtain ⟨k, w⟩ := f
    by_cases hk : k = key
    · subst hk
      rw [set, if_pos rfl, get?_cons, get?_cons, if_neg h, if_neg h]
    · rw [set, if_neg hk, get?_cons, get?_cons, ih]

end Fields

namespace Json

/-- The kinds of values. -/
inductive Kind where
  | null
  | bool
  | int
  | real
  | str
  | arr
  | obj
  deriving DecidableEq, Repr

/-- The kind of a value. -/
def kind : Json → Kind
  | null => .null
  | bool _ => .bool
  | int _ => .int
  | real _ => .real
  | str _ => .str
  | arr _ => .arr
  | obj _ => .obj

/-- What other values can lie in. -/
inductive Container where
  | array
  | object
  deriving DecidableEq, Repr

/-- Everything counts as true but `null`, `false`, zero and what is empty. -/
def truthy : Json → Bool
  | null => false
  | bool b => b
  | int n => n != 0
  | real x => x.isNonzero
  | str s => s != ""
  | arr items => !items.isEmpty
  | obj fields => !fields.isEmpty

/-- The value if it counts as true. -/
def ifTruthy (v : Json) : Option Json := if v.truthy then some v else none

/-- `null` for no value. -/
def ofOption : Option Json → Json
  | some v => v
  | none => null

/-- The value itself, or `null` for no text. -/
def ofString? : Option String → Json
  | some s => str s
  | none => null

/-- The value of a key, if the value is an object that has it. -/
def get? : Json → String → Option Json
  | obj fields, key => Fields.get? fields key
  | _, _ => none

/-- The members one would go through: the items of a list, the characters of a text, the keys of
an object; whatever is falsy has none, and a number or `true` cannot be gone through. -/
def members? : Json → Option (List Json)
  | arr items => some items
  | str s => some (s.toList.map fun c => str (String.singleton c))
  | obj fields => some (fields.map fun f => str f.1)
  | v => if v.truthy then none else some []

end Json

end FormatServer
