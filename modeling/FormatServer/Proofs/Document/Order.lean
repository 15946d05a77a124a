import FormatServer.Proofs.Document.Normal

/-!
# Offsets and positions keep their order

A later offset has no earlier position, and a later position no earlier offset, in characters or in
UTF-16 code units, whatever integers the client sends (`Snapshot.order_preserved`). Two offsets in
the text have one position only if they stand before and behind the carriage return of one line break
(`Snapshot.positionAt_eq_iff`).
-/

set_option autoImplicit false

namespace FormatServer

namespace Lines

/-! ## Later columns and lines -/

theorem before_mono : ∀ (cs : List Char) {i j : Int}, i ≤ j → before cs i ≤ before cs j
  | [], _, _, _ => Nat.le_refl _
  | c :: cs, i, j, h => by
    by_cases hi : i ≤ 0
    · rw [before_of_nonpos _ hi]
      exact Nat.zero_le _
    · rw [before, if_neg hi, before, if_neg (by omega)]
      exact Nat.succ_le_succ (before_mono cs (by omega))

/-- An earlier line ends before a later one starts. -/
theorem offset_mono_line (last : List Char) (i j : Int) : ∀ (ls : List Line) {n m : Nat}, n < m →
    offset ls last n i ≤ offset ls last m j
  | [], 0, _ + 1, _ => before_le_length last i
  | [], _ + 1, _ + 1, _ => Nat.le_refl _
  | l :: ls, 0, m + 1, _ => by
    have hle := before_le_length l.content i
    rw [offset, offset, Line.length]
    omega
  | l :: ls, n + 1, m + 1, h =>
    Nat.add_le_add_left (offset_mono_line last i j ls (Nat.lt_of_succ_lt_succ h)) l.length

theorem offset_mono_column (last : List Char) {i j : Int} (h : i ≤ j) :
    ∀ (ls : List Line) (n : Nat), offset ls last n i ≤ offset ls last n j
  | [], 0 => before_mono last h
  | [], _ + 1 => Nat.le_refl _
  | l :: _, 0 => before_mono l.content h
  | l :: ls, n + 1 => Nat.add_le_add_left (offset_mono_column last h ls n) l.length

end Lines

namespace Snapshot

variable {d : Snapshot}

theorem offsetAt_mono (d : Snapshot) {p q : Position} (h : p ≤ q) :
    d.offsetAt p ≤ d.offsetAt q := by
  by_cases hp : p.line < 0
  · rw [offsetAt_of_neg hp]
    exact Nat.zero_le _
  have hq : ¬ q.line < 0 := by
    rcases h with hlt | ⟨heq, -⟩ <;> omega
  unfold offsetAt
  rw [if_neg hp, if_neg hq]
  rcases h with hlt | ⟨heq, hle⟩
  · exact Lines.offset_mono_line _ _ _ _ (by omega)
  · rw [heq]
    exact Lines.offset_mono_column _ hle _ _

theorem utf16OffsetAt_mono (d : Snapshot) {p q : Position} (h : p ≤ q) :
    d.utf16OffsetAt p ≤ d.utf16OffsetAt q :=
  Text.utf16Length_take_mono d.chars (d.offsetAt_mono h)

/-! ## Offsets with one position -/

/-- The offset that a position has: the one that it is the position of, or the one before the line
break that this one splits. -/
theorem exists_unsplit (d : Snapshot) (offset : Int) : ∃ o : Nat,
    d.positionAt offset = d.positionAt o ∧ d.offsetAt (d.positionAt o) = o ∧
      (o = d.clamp offset ∨ o + 1 = d.clamp offset ∧ splitsBreak d.chars (d.clamp offset) = true) := by
  rw [← d.positionAt_clamp offset]
  by_cases hs : splitsBreak d.chars (d.clamp offset) = true
  · obtain ⟨hpos, hr, -⟩ := splitsBreak_iff.1 hs
    have hle := lt_length_of_splitsBreak hs
    exact ⟨d.clamp offset - 1, positionAt_of_splitsBreak hs,
      offsetAt_positionAt (by omega) (not_splitsBreak_of_carriageReturn hr), .inr ⟨by omega, hs⟩⟩
  · exact ⟨d.clamp offset, rfl, offsetAt_positionAt (Nat.min_le_right _ _) hs, .inl rfl⟩

theorem positionAt_eq_iff {i j : Int} (h : i ≤ j) :
    d.positionAt i = d.positionAt j ↔ d.clamp i = d.clamp j ∨
      d.clamp j = d.clamp i + 1 ∧ d.chars[d.clamp i]? = some '\r' ∧
        d.chars[d.clamp j]? = some '\n' := by
  have hij := d.clamp_mono h
  constructor
  · intro heq
    obtain ⟨o, hpi, ho, hoi⟩ := d.exists_unsplit i
    obtain ⟨o', hpj, ho', hoj⟩ := d.exists_unsplit j
    -- One position has one offset, so the two differ from it by the break that they split.
    obtain rfl : o = o' := by rw [← ho, ← ho', ← hpi, ← hpj, heq]
    rcases hoi with hi | ⟨hi, hs⟩ <;> rcases hoj with hj | ⟨hj, hs'⟩
    · exact .inl (hi.symm.trans hj)
    · obtain ⟨-, hr, hn⟩ := splitsBreak_iff.1 hs'
      refine .inr ⟨by omega, ?_, hn⟩
      rwa [← hj, Nat.add_sub_cancel, hi] at hr
    · omega
    · exact .inl (hi.symm.trans hj)
  · rintro (heq | ⟨hsucc, hr, hn⟩)
    · rw [← d.positionAt_clamp i, ← d.positionAt_clamp j, heq]
    · have hs : splitsBreak d.chars (d.clamp j) = true := by
        rw [splitsBreak_iff, hsucc, Nat.add_sub_cancel]
        exact ⟨Nat.succ_pos _, hr, hsucc ▸ hn⟩
      rw [← d.positionAt_clamp i, ← d.positionAt_clamp j, positionAt_of_splitsBreak hs, hsucc,
        Nat.add_sub_cancel]

/-- Neither direction turns the order of any two integers or positions around. -/
theorem order_preserved (d : Snapshot) :
    (∀ i j : Int, i ≤ j → d.positionAt i ≤ d.positionAt j ∧
      (d.positionAt i = d.positionAt j ↔ d.clamp i = d.clamp j ∨
        d.clamp j = d.clamp i + 1 ∧ d.chars[d.clamp i]? = some '\r' ∧
          d.chars[d.clamp j]? = some '\n')) ∧
    ∀ p q : Position, p ≤ q → d.offsetAt p ≤ d.offsetAt q ∧ d.utf16OffsetAt p ≤ d.utf16OffsetAt q :=
  ⟨fun _ _ h => ⟨d.positionAt_mono h, positionAt_eq_iff h⟩,
    fun _ _ h => ⟨d.offsetAt_mono h, d.utf16OffsetAt_mono h⟩⟩

end Snapshot

end FormatServer
