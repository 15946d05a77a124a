/-!
# UTF-16 code units

The editor counts columns in UTF-16 code units: a character outside the basic plane takes two.
`utf16` is the encoding itself and `utf16Length` its length.
-/

set_option autoImplicit false

namespace FormatServer.Text

/-- Code units that `c` takes in UTF-16. -/
def units (c : Char) : Nat := if c.toNat ≤ 0xFFFF then 1 else 2

/-- Length of a text in UTF-16 code units. -/
def utf16Length : List Char → Nat
  | [] => 0
  | c :: cs => units c + utf16Length cs

/-- The code units of one character: itself, or a surrogate pair. -/
def utf16Units (c : Char) : List UInt16 :=
  if c.toNat ≤ 0xFFFF then [UInt16.ofNat c.toNat]
  else
    let v := c.toNat - 0x10000
    [UInt16.ofNat (0xD800 + v / 0x400), UInt16.ofNat (0xDC00 + v % 0x400)]

/-- A text encoded in UTF-16. -/
def utf16 (cs : List Char) : List UInt16 := cs.flatMap utf16Units

theorem length_utf16Units (c : Char) : (utf16Units c).length = units c := by
  unfold utf16Units units
  split <;> simp

theorem length_utf16 (cs : List Char) : (utf16 cs).length = utf16Length cs := by
  induction cs with
  | nil => rfl
  | cons c cs ih => simp [utf16, utf16Length, length_utf16Units] at ih ⊢; omega

theorem utf16Length_append (cs ds : List Char) :
    utf16Length (cs ++ ds) = utf16Length cs + utf16Length ds := by
  induction cs with
  | nil => simp [utf16Length]
  | cons c cs ih => simp [utf16Length, ih]; omega

end FormatServer.Text
