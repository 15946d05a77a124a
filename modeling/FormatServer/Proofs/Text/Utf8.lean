import FormatServer.Text.Utf8

/-!
# Reading back what is written in UTF-8

The first byte of a character tells its first bits and the range of the byte after it
(`Lead.of?_two`, `Lead.of?_three`, `Lead.of?_four`). Each of the others adds six bits
(`scanFrom_more`, `scanFrom_last`), so that the bytes of a character are read as that character,
whatever follows (`scanFrom_utf8Bytes`), and those of a text as that text (`decodeLossy_encode`).
-/

set_option autoImplicit false

namespace FormatServer.Text

/-- A scalar value is no surrogate and no larger than U+10FFFF. -/
theorem toNat_scalar (c : Char) : c.toNat < 0xD800 ∨ 0xDFFF < c.toNat ∧ c.toNat < 0x110000 := c.valid

/-! ## First bytes -/

/-- A first byte may be followed by `next`. -/
def Lead.Begins (b bits more next : Nat) : Prop :=
  ∃ low high, of? b = some ⟨bits, more, low, high⟩ ∧ low ≤ next ∧ next ≤ high

theorem Lead.of?_one {n : Nat} (h : n < 0x80) : of? n = some ⟨n, 0, 0x80, 0xBF⟩ := if_pos h

theorem Lead.of?_two {n : Nat} (h : 0x80 ≤ n) (h' : n < 0x800) :
    Begins (0xC0 + n / 64) (n / 64) 1 (0x80 + n % 64) := by
  refine ⟨0x80, 0xBF, ?_, by omega, by omega⟩
  rw [of?, if_neg (by omega), if_neg (by omega), if_pos (by omega), Nat.add_sub_cancel_left]

theorem Lead.of?_three {n : Nat} (h : 0x800 ≤ n) (h' : n < 0xD800 ∨ 0xDFFF < n ∧ n < 0x10000) :
    Begins (0xE0 + n / 4096) (n / 4096) 2 (0x80 + n / 64 % 64) := by
  unfold Begins of?
  rw [if_neg (by omega), if_neg (by omega), if_neg (by omega)]
  by_cases hE0 : n < 0x1000
  · refine ⟨0xA0, 0xBF, ?_, by omega, by omega⟩
    rw [if_pos (by omega), show n / 4096 = 0 by omega]
  by_cases hED : 0xD000 ≤ n ∧ n < 0xE000
  · refine ⟨0x80, 0x9F, ?_, by omega, by omega⟩
    rw [if_neg (by omega), if_pos (by omega), show n / 4096 = 0xD by omega]
  · refine ⟨0x80, 0xBF, ?_, by omega, by omega⟩
    rw [if_neg (by omega), if_neg (by omega), if_pos (by omega), Nat.add_sub_cancel_left]

theorem Lead.of?_four {n : Nat} (h : 0x10000 ≤ n) (h' : n < 0x110000) :
    Begins (0xF0 + n / 262144) (n / 262144) 3 (0x80 + n / 4096 % 64) := by
  unfold Begins of?
  rw [if_neg (by omega), if_neg (by omega), if_neg (by omega), if_neg (by omega), if_neg (by omega),
    if_neg (by omega)]
  by_cases hF0 : n < 0x40000
  · refine ⟨0x90, 0xBF, ?_, by omega, by omega⟩
    rw [if_pos (by omega), show n / 262144 = 0 by omega]
  by_cases hF4 : 0x100000 ≤ n
  · refine ⟨0x80, 0x8F, ?_, by omega, by omega⟩
    rw [if_neg (by omega), if_neg (by omega), if_pos (by omega), show n / 262144 = 4 by omega]
  · refine ⟨0x80, 0xBF, ?_, by omega, by omega⟩
    rw [if_neg (by omega), if_pos (by omega), Nat.add_sub_cancel_left]

/-! ## Scanning -/

theorem toNat_byte {n : Nat} (h : n < 256) : (UInt8.ofNat n).toNat = n := UInt8.toNat_ofNat_of_lt' h

theorem scanFrom_one {n : Nat} (h : n < 0x80) (bytes : List UInt8) :
    scanFrom none (UInt8.ofNat n :: bytes) = some (Char.ofNat n) :: scanFrom none bytes := by
  rw [scanFrom, toNat_byte (Nat.lt_trans h (by decide)), Lead.of?_one h]
  rfl

theorem scanFrom_first {b : Nat} {l : Lead} (hb : b < 256) (h : Lead.of? b = some l)
    (hmore : l.more ≠ 0) (bytes : List UInt8) :
    scanFrom none (UInt8.ofNat b :: bytes) = scanFrom (some l) bytes := by
  rw [scanFrom, toNat_byte hb, h]
  exact if_neg hmore

theorem scanFrom_more {l : Lead} {r : Nat} (hr : r < 64) (hlow : l.low ≤ 0x80 + r)
    (hhigh : 0x80 + r ≤ l.high) (hmore : l.more ≠ 1) (bytes : List UInt8) :
    scanFrom (some l) (UInt8.ofNat (0x80 + r) :: bytes) =
      scanFrom (some ⟨l.bits * 64 + r, l.more - 1, 0x80, 0xBF⟩) bytes := by
  rw [scanFrom, toNat_byte (by omega)]
  dsimp only
  rw [if_pos ⟨hlow, hhigh⟩, if_neg hmore, Nat.add_sub_cancel_left]

theorem scanFrom_last {l : Lead} {r : Nat} (hr : r < 64) (hlow : l.low ≤ 0x80 + r)
    (hhigh : 0x80 + r ≤ l.high) (hmore : l.more = 1) (bytes : List UInt8) :
    scanFrom (some l) (UInt8.ofNat (0x80 + r) :: bytes) =
      some (Char.ofNat (l.bits * 64 + r)) :: scanFrom none bytes := by
  rw [scanFrom, toNat_byte (by omega)]
  dsimp only
  rw [if_pos ⟨hlow, hhigh⟩, if_pos hmore, Nat.add_sub_cancel_left]

/-- The bytes of a character are read as that character. -/
theorem scanFrom_utf8Bytes (c : Char) (bytes : List UInt8) :
    scanFrom none (utf8Bytes c ++ bytes) = some c :: scanFrom none bytes := by
  have hvalid := toNat_scalar c
  have hchar : ∀ n, n = c.toNat → Char.ofNat n = c := fun n hn => by rw [hn, Char.ofNat_toNat]
  have hmod : ∀ n, n % 64 < 64 := fun n => Nat.mod_lt n (by decide)
  unfold utf8Bytes
  generalize c.toNat = n at hvalid hchar
  dsimp only
  split
  · next h => rw [List.singleton_append, scanFrom_one h, hchar n rfl]
  split
  · next h h' =>
    obtain ⟨low, high, hlead, hlow, hhigh⟩ := Lead.of?_two (Nat.le_of_not_lt h) h'
    simp only [List.cons_append, List.nil_append]
    rw [scanFrom_first (by omega) hlead (Nat.succ_ne_zero _), scanFrom_last (hmod n) hlow hhigh rfl,
      hchar _ (by dsimp only; omega)]
  split
  · next h h' =>
    obtain ⟨low, high, hlead, hlow, hhigh⟩ := Lead.of?_three (n := n) (by omega) (by omega)
    simp only [List.cons_append, List.nil_append]
    rw [scanFrom_first (by omega) hlead (Nat.succ_ne_zero _),
      scanFrom_more (hmod _) hlow hhigh (by simp),
      scanFrom_last (hmod n) (by dsimp only; omega) (by dsimp only; omega) rfl,
      hchar _ (by dsimp only; omega)]
  · next h =>
    obtain ⟨low, high, hlead, hlow, hhigh⟩ := Lead.of?_four (n := n) (by omega) (by omega)
    simp only [List.cons_append, List.nil_append]
    rw [scanFrom_first (by omega) hlead (Nat.succ_ne_zero _),
      scanFrom_more (hmod _) hlow hhigh (by simp),
      scanFrom_more (hmod _) (by dsimp only; omega) (by dsimp only; omega) (by simp),
      scanFrom_last (hmod n) (by dsimp only; omega) (by dsimp only; omega) rfl,
      hchar _ (by dsimp only; omega)]

theorem scan_encode (cs : List Char) : scan (encode cs) = cs.map some := by
  unfold scan encode
  induction cs with
  | nil => rfl
  | cons c cs ih => rw [List.flatMap_cons, scanFrom_utf8Bytes, ih, List.map_cons]

/-- A text written in UTF-8 is read back. -/
theorem decodeLossy_encode (cs : List Char) : decodeLossy (encode cs) = cs := by
  rw [decodeLossy, scan_encode, List.map_map]
  exact List.map_id cs

end FormatServer.Text
