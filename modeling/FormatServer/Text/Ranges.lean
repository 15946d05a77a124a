/-!
# Sets of characters given by ranges

A property of characters is written as the list of the code point ranges that have it.
-/

set_option autoImplicit false

namespace FormatServer.Text

/-- Some range of the list contains the code point of `c`, its two ends included. -/
def inRanges (ranges : List (Nat × Nat)) (c : Char) : Bool :=
  ranges.any fun r => decide (r.1 ≤ c.toNat ∧ c.toNat ≤ r.2)

end FormatServer.Text
