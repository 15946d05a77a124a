import FormatServer.Proofs.Edit.Difference

/-!
# Span edits are minimal

The edits that turn one text into another differ in how much of the common beginning and of the
common ending they keep (`Span.Turns.start_le_common`, `Span.Turns.kept_le_commonEnd`,
`Span.exists_turns`). `Span.between` keeps all of the beginning, and of the ending what fits beside
it in the shorter text (`Span.stop_between`); no other edit takes out less, puts in less or starts
later (`Span.between_minimal`).
-/

set_option autoImplicit false

namespace FormatServer.Span

/-- The edit lies in `source` and turns it into `candidate`. -/
structure Turns (e : Span) (source candidate : List Char) : Prop where
  start_le_stop : e.start ≤ e.stop
  stop_le_length : e.stop ≤ source.length
  apply_eq : e.apply source = candidate

/-- Number of characters that an edit takes out. -/
def removed (e : Span) : Nat := e.stop - e.start

/-- Length of the longest common ending. -/
def commonEnd (as bs : List Char) : Nat := common as.reverse bs.reverse

/-! ## Common beginnings and endings -/

theorem common_take : ∀ (as bs : List Char) (m n : Nat),
    common (as.take m) (bs.take n) = min (common as bs) (min m n)
  | [], _, _, _ => by simp [common]
  | _ :: _, [], _, _ => by simp [common]
  | _ :: _, _ :: _, 0, _ => by simp [common]
  | _ :: _, _ :: _, _ + 1, 0 => by simp [common]
  | a :: as, b :: bs, m + 1, n + 1 => by
    simp only [List.take_succ_cons, common]
    split
    · rw [common_take as bs m n]
      omega
    · omega

theorem le_common_iff {as bs : List Char} {k : Nat} :
    k ≤ common as bs ↔ k ≤ as.length ∧ k ≤ bs.length ∧ as.take k = bs.take k := by
  constructor
  · intro h
    refine ⟨Nat.le_trans h (common_le_left as bs), Nat.le_trans h (common_le_right as bs), ?_⟩
    have htake := congrArg (List.take k) (take_common as bs)
    rwa [List.take_take, List.take_take, Nat.min_eq_left h] at htake
  · rintro ⟨ha, hb, h⟩
    have hk := common_take as bs k k
    rw [← h, common_self, List.length_take, Nat.min_eq_left ha] at hk
    omega

theorem le_commonEnd_iff {as bs : List Char} {k : Nat} :
    k ≤ commonEnd as bs ↔ k ≤ as.length ∧ k ≤ bs.length ∧
      as.drop (as.length - k) = bs.drop (bs.length - k) := by
  rw [commonEnd, le_common_iff, List.length_reverse, List.length_reverse, List.take_reverse,
    List.take_reverse, List.reverse_inj]

/-! ## What `between` keeps -/

theorem stop_between (source candidate : List Char) :
    (between source candidate).stop = source.length - min (commonEnd source candidate)
      (min source.length candidate.length - common source candidate) := by
  simp only [between, commonEnd, List.reverse_drop]
  rw [common_take]
  omega

theorem turns_between (source candidate : List Char) :
    (between source candidate).Turns source candidate :=
  ⟨start_le_stop_between source candidate, stop_le_length_between source candidate,
    apply_between source candidate⟩

/-! ## What other edits keep -/

section
variable {e : Span} {source candidate : List Char}

theorem Turns.length_candidate (h : e.Turns source candidate) :
    e.start + e.text.length + (source.length - e.stop) = candidate.length := by
  have hstart := h.start_le_stop
  have hstop := h.stop_le_length
  rw [← h.apply_eq, apply, List.length_append, List.length_append, List.length_take,
    List.length_drop]
  omega

theorem Turns.start_le_common (h : e.Turns source candidate) :
    e.start ≤ common source candidate := by
  have hlen := h.length_candidate
  have hstart : e.start ≤ source.length := Nat.le_trans h.start_le_stop h.stop_le_length
  refine le_common_iff.2 ⟨hstart, by omega, ?_⟩
  rw [← h.apply_eq, apply, List.append_assoc, List.take_left' (List.length_take_of_le hstart)]

theorem Turns.kept_le_commonEnd (h : e.Turns source candidate) :
    source.length - e.stop ≤ commonEnd source candidate := by
  have hlen := h.length_candidate
  have hstart := h.start_le_stop
  have hstop := h.stop_le_length
  refine le_commonEnd_iff.2 ⟨Nat.sub_le _ _, by omega, ?_⟩
  have hcut : candidate.length - (source.length - e.stop) =
      (source.take e.start ++ e.text).length := by
    rw [List.length_append, List.length_take]
    omega
  rw [hcut, ← h.apply_eq, apply, List.drop_left, Nat.sub_sub_self hstop]

/-- Some edit keeps the first `s` and the last `q` characters of `source`, if both texts have them
in common and they fit side by side. -/
theorem exists_turns {s q : Nat} (hs : s ≤ common source candidate)
    (hq : q ≤ commonEnd source candidate) (hsource : s + q ≤ source.length)
    (hcandidate : s + q ≤ candidate.length) :
    ∃ text, Turns ⟨s, source.length - q, text⟩ source candidate := by
  obtain ⟨-, -, hbegin⟩ := le_common_iff.1 hs
  obtain ⟨-, -, hend⟩ := le_commonEnd_iff.1 hq
  have hfit : s ≤ source.length - q := by omega
  have hcut : candidate.length - q = s + (candidate.length - q - s) := by omega
  refine ⟨(candidate.drop s).take (candidate.length - q - s), hfit, Nat.sub_le _ _, ?_⟩
  rw [apply, hbegin, hend, hcut, ← List.drop_drop, List.append_assoc, Nat.add_sub_cancel_left,
    List.take_append_drop, List.take_append_drop]

end

/-! ## The smallest edit -/

theorem Turns.removed_between_le {e : Span} {source candidate : List Char}
    (h : e.Turns source candidate) : (between source candidate).removed ≤ e.removed := by
  have hbegin := h.start_le_common
  have hend := h.kept_le_commonEnd
  have hlen := h.length_candidate
  have hstart := h.start_le_stop
  have hstop := h.stop_le_length
  have hbetween := stop_between source candidate
  have hcommon : (between source candidate).start = common source candidate := rfl
  -- `e` may keep more of the ending only where it gives up as much of the beginning
  unfold removed
  omega

/-- What an edit puts in exceeds what it takes out by what `candidate` is longer than `source`. -/
theorem Turns.length_text {e : Span} {source candidate : List Char} (h : e.Turns source candidate) :
    e.text.length + source.length = e.removed + candidate.length := by
  have hlen := h.length_candidate
  have hstart := h.start_le_stop
  have hstop := h.stop_le_length
  unfold removed
  omega

theorem between_minimal (source candidate : List Char) :
    (between source candidate).Turns source candidate ∧
      (∀ e : Span, e.Turns source candidate →
        (between source candidate).removed ≤ e.removed ∧
        (between source candidate).text.length ≤ e.text.length ∧
        e.start ≤ (between source candidate).start) ∧
      (between source candidate = ⟨source.length, source.length, []⟩ ↔ source = candidate) := by
  have hturns := turns_between source candidate
  refine ⟨hturns, fun e he => ?_, fun h => ?_, ?_⟩
  · have hremoved := he.removed_between_le
    have htext := he.length_text
    have hbetween := hturns.length_text
    exact ⟨hremoved, by omega, he.start_le_common⟩
  · have happly := hturns.apply_eq
    rw [h, apply_of_isEmpty (by simp [isEmpty])] at happly
    exact happly
  · rintro rfl
    exact between_self source

end FormatServer.Span
