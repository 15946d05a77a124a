import FormatServer.Json.Canonical

/-!
# Values as keys

A list of pairs may have other scalars than texts as keys. Keys that are numbers are the same if
their values are, however they are written.
-/

set_option autoImplicit false

namespace FormatServer.Json

/-- Numerator and denominator of a finite number; `true` counts as one and `false` as zero. -/
def fraction? : Json → Option (Int × Nat)
  | bool b => some (if b then 1 else 0, 1)
  | int n => some (n, 1)
  | real (.finite negative m e) =>
    let (n, d) := Number.Binary64.ratio m 2 e
    some (if negative then -n else n, d)
  | _ => none

/-- Two scalars are the same key: finite numbers by value, other scalars by what they are. -/
def isSameKey (a b : Json) : Bool :=
  match a.fraction?, b.fraction? with
  | some (n, d), some (m, e) => n * e == m * d
  | none, none =>
    match a, b with
    | null, null => true
    | str s, str t => s == t
    | real x, real y => x == y
    | _, _ => false
  | _, _ => false

/-- The text under which a key appears in an object. -/
def keyText : Json → String
  | str s => s
  | v => Canonical.spell v

/-- Sets the value of a key, in place if the key is there and at the end if it is not. -/
def setEntry : List (Json × Json) → Json → Json → List (Json × Json)
  | [], key, v => [(key, v)]
  | (k, w) :: es, key, v =>
    if k.isSameKey key then (k, v) :: es else (k, w) :: setEntry es key v

/-- The fields in a list of pairs: a repeated key keeps its first spelling and its last value. -/
def fieldsOfEntries (entries : List (Json × Json)) : Fields :=
  Fields.ofPairs <| (entries.foldl (fun acc e => setEntry acc e.1 e.2) []).map fun e =>
    (e.1.keyText, e.2)

end FormatServer.Json
