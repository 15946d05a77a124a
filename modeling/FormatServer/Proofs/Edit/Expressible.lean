import FormatServer.Proofs.Document.Position
import FormatServer.Proofs.Edit.Answer
import FormatServer.Proofs.Edit.Minimal

/-!
# Edits that positions can express

Positions express the offsets that do not split a line break. `TextEdit.between` is the smallest
edit widened to such offsets, and no further than it has to be (`TextEdit.between_placed`).

That is the smallest expressible edit, unless an end of the smallest edit splits a break and the
common beginning and the common ending of the texts overlap: then an edit that lies one character
earlier turns the text into the candidate as well, is as small and splits nothing
(`TextEdit.between_smallest_iff`).
-/

set_option autoImplicit false

namespace FormatServer

namespace Span

/-- Neither end of the edit splits a line break. -/
def Expressible (e : Span) (text : List Char) : Prop :=
  ¬ splitsBreak text e.start = true ∧ ¬ splitsBreak text e.stop = true

instance (e : Span) (text : List Char) : Decidable (e.Expressible text) :=
  inferInstanceAs (Decidable (_ ∧ _))

/-- All that `e` replaces is replaced by `f`. -/
def Covers (f e : Span) : Prop := f.start ≤ e.start ∧ e.stop ≤ f.stop

theorem Covers.removed_le {e f : Span} (h : f.Covers e) : e.removed ≤ f.removed := by
  obtain ⟨hstart, hstop⟩ := h
  unfold removed
  omega

/-! ## Widening -/

section
variable {text : List Char} {e f : Span}

theorem expressible_widen (text : List Char) (e : Span) : (e.widen text).Expressible text :=
  ⟨not_splitsBreak_start_widen text e, not_splitsBreak_stop_widen text e⟩

theorem widen_covers (text : List Char) (e : Span) : (e.widen text).Covers e := by
  rw [Covers, start_widen, stop_widen]
  split <;> split <;> omega

theorem Covers.widen (h : f.Covers e) (hf : f.Expressible text) : f.Covers (e.widen text) := by
  obtain ⟨hstart, hstop⟩ := h
  rw [Covers, start_widen, stop_widen]
  constructor
  · split
    · rename_i hs
      have hne : f.start ≠ e.start := fun heq => hf.1 (heq ▸ hs)
      omega
    · exact hstart
  · split
    · rename_i hs
      have hne : f.stop ≠ e.stop := fun heq => hf.2 (heq ▸ hs)
      omega
    · exact hstop

theorem widen_of_expressible (h : e.Expressible text) : e.widen text = e := by
  simp only [Span.widen, if_neg h.1, if_neg h.2]

theorem removed_widen_le (text : List Char) (e : Span) :
    (e.widen text).removed ≤ e.removed + 2 := by
  rw [removed, start_widen, stop_widen, removed]
  split <;> split <;> omega

theorem removed_lt_removed_widen (h : e.start ≤ e.stop) (hne : ¬ e.Expressible text) :
    e.removed < (e.widen text).removed := by
  rw [removed, removed, start_widen, stop_widen]
  by_cases hs : splitsBreak text e.start = true
  · have hpos := (splitsBreak_iff.1 hs).1
    rw [if_pos hs]
    split <;> omega
  · have hstop : splitsBreak text e.stop = true :=
      Decidable.not_not.1 fun hstop => hne ⟨hs, hstop⟩
    rw [if_neg hs, if_pos hstop]
    omega

end

/-! ## Overlap -/

section
variable {e : Span} {source candidate : List Char}

/-- What the texts begin with and what they end with overlap in the shorter one. -/
def Overlap (source candidate : List Char) : Prop :=
  min source.length candidate.length < common source candidate + commonEnd source candidate

instance (source candidate : List Char) : Decidable (Overlap source candidate) :=
  inferInstanceAs (Decidable (_ < _))

theorem Turns.covers_between (h : e.Turns source candidate) (ho : ¬ Overlap source candidate) :
    e.Covers (between source candidate) := by
  have hbegin := h.start_le_common
  have hend := h.kept_le_commonEnd
  have hstop := h.stop_le_length
  have hbetween := stop_between source candidate
  refine ⟨hbegin, ?_⟩
  unfold Overlap at ho
  omega

namespace Overlap

theorem start_between_pos (h : Overlap source candidate) : 0 < (between source candidate).start := by
  have hsource := common_le_left source.reverse candidate.reverse
  have hcandidate := common_le_right source.reverse candidate.reverse
  rw [List.length_reverse] at hsource hcandidate
  show 0 < common source candidate
  simp only [Overlap, commonEnd] at h
  omega

/-- One character earlier the edit does the same: the common ending has room for one more where the
common beginning gives one up. -/
theorem exists_turns_pred (h : Overlap source candidate) :
    ∃ text, Turns ⟨(between source candidate).start - 1, (between source candidate).stop - 1, text⟩
      source candidate := by
  have hbetween := stop_between source candidate
  have hsource := common_le_left source candidate
  have hcandidate := common_le_right source candidate
  have hpos : 0 < common source candidate := h.start_between_pos
  unfold Overlap at h
  have hstop : (between source candidate).stop - 1 =
      source.length - (min source.length candidate.length - common source candidate + 1) := by
    omega
  rw [hstop]
  apply exists_turns
  · exact Nat.sub_le _ _
  · omega
  · show common source candidate - 1 + _ ≤ _
    omega
  · show common source candidate - 1 + _ ≤ _
    omega

/-- The same character stands before both ends of the edit: one that the edit keeps, and that lies
in the common ending as well. -/
theorem getElem?_start_between (h : Overlap source candidate) :
    source[(between source candidate).start - 1]? = source[(between source candidate).stop - 1]? := by
  have hbetween := stop_between source candidate
  have hstart : (between source candidate).start = common source candidate := rfl
  have hpos : 0 < common source candidate := h.start_between_pos
  have hsource := common_le_left source candidate
  have hcandidate := common_le_right source candidate
  unfold Overlap at h
  rcases Nat.le_total source.length candidate.length with hle | hle
  · -- nothing is taken out: the ends are one
    rw [hstart, show (between source candidate).stop = common source candidate by omega]
  · -- nothing is put in: what is kept at the end follows what is kept at the beginning
    obtain ⟨-, -, hbegin⟩ := le_common_iff.1 (Nat.le_refl (common source candidate))
    obtain ⟨-, -, hend⟩ := le_commonEnd_iff.1
      (show candidate.length - common source candidate + 1 ≤ commonEnd source candidate by omega)
    have hfirst := congrArg List.head? hend
    rw [List.head?_drop, List.head?_drop,
      show candidate.length - (candidate.length - common source candidate + 1) =
        common source candidate - 1 by omega,
      show source.length - (candidate.length - common source candidate + 1) =
        (between source candidate).stop - 1 by omega] at hfirst
    rw [hstart, hfirst, ← List.getElem?_take_of_lt (show common source candidate - 1 <
      common source candidate by omega), hbegin, List.getElem?_take_of_lt (by omega)]

theorem exists_expressible (h : Overlap source candidate)
    (hne : ¬ (between source candidate).Expressible source) :
    ∃ e : Span, e.Turns source candidate ∧ e.Expressible source ∧
      e.removed = (between source candidate).removed := by
  obtain ⟨text, hturns⟩ := h.exists_turns_pred
  have hpos := h.start_between_pos
  have hsame := h.getElem?_start_between
  -- an end that splits a break has a carriage return before it, and so has the other end
  have hreturn : source[(between source candidate).start - 1]? = some '\r' := by
    by_cases hs : splitsBreak source (between source candidate).start = true
    · exact (splitsBreak_iff.1 hs).2.1
    · have hstop : splitsBreak source (between source candidate).stop = true :=
        Decidable.not_not.1 fun hstop => hne ⟨hs, hstop⟩
      exact hsame.trans (splitsBreak_iff.1 hstop).2.1
  refine ⟨_, hturns, ⟨not_splitsBreak_of_carriageReturn hreturn,
    not_splitsBreak_of_carriageReturn (hsame ▸ hreturn)⟩, ?_⟩
  simp only [removed]
  omega

end Overlap

end

end Span

/-! ## Edits of a document -/

namespace TextEdit

/-- The edit that a client applies. -/
def toSpan (e : TextEdit) (d : Snapshot) : Span :=
  ⟨d.offsetAt e.range.start, d.offsetAt e.range.stop, e.newText.toList⟩

theorem toSpan_between (d : Snapshot) (candidate : String) :
    (between d candidate).toSpan d = span d candidate := by
  rw [toSpan, offsetAt_start_between, offsetAt_stop_between, newText_between]

theorem turns_span (d : Snapshot) (candidate : String) :
    (span d candidate).Turns d.chars candidate.toList :=
  ⟨Span.start_le_stop_widen (Span.start_le_stop_between _ _), stop_span_le d candidate,
    apply_span d candidate⟩

theorem between_placed (d : Snapshot) (candidate : String) :
    let edit := between d candidate
    let placed := edit.toSpan d
    let smallest := Span.between d.chars candidate.toList
    (d.Valid edit.range.start ∧ d.Valid edit.range.stop ∧ edit.range.start ≤ edit.range.stop) ∧
      placed.Turns d.chars candidate.toList ∧
      (placed.Covers smallest ∧ placed.Expressible d.chars) ∧
      ∀ e : Span, e.Covers smallest → e.Expressible d.chars → e.Covers placed := by
  intro edit placed smallest
  have hplaced : placed = smallest.widen d.chars := toSpan_between d candidate
  have hturns : placed.Turns d.chars candidate.toList := hplaced ▸ turns_span d candidate
  refine ⟨⟨d.valid_positionAt _, d.valid_positionAt _, ?_⟩, hturns, ⟨?_, ?_⟩, fun e he hx => ?_⟩
  · exact d.positionAt_mono (Int.ofNat_le.2 (turns_span d candidate).start_le_stop)
  · rw [hplaced]
    exact Span.widen_covers d.chars smallest
  · rw [hplaced]
    exact Span.expressible_widen d.chars smallest
  · rw [hplaced]
    exact he.widen hx

theorem between_smallest_iff (d : Snapshot) (candidate : String) :
    let placed := (between d candidate).toSpan d
    let smallest := Span.between d.chars candidate.toList
    ((∀ e : Span, e.Turns d.chars candidate.toList → e.Expressible d.chars →
        placed.removed ≤ e.removed) ↔
      smallest.Expressible d.chars ∨ ¬ Span.Overlap d.chars candidate.toList) ∧
    ∀ e : Span, e.Turns d.chars candidate.toList → placed.removed ≤ e.removed + 2 := by
  intro placed smallest
  have hplaced : placed = smallest.widen d.chars := toSpan_between d candidate
  rw [hplaced]
  refine ⟨⟨fun hall => ?_, fun hcond e he hx => ?_⟩, fun e he => ?_⟩
  · -- the edit one character earlier needs no widening
    refine Decidable.byContradiction fun hcond => ?_
    obtain ⟨hne, ho⟩ := not_or.1 hcond
    obtain ⟨e, he, hx, hremoved⟩ := (Decidable.not_not.1 ho).exists_expressible hne
    have hlt := Span.removed_lt_removed_widen (Span.start_le_stop_between _ _) hne
    exact absurd (hremoved ▸ hall e he hx) (Nat.not_le.2 hlt)
  · rcases hcond with hx' | ho
    · -- no widening
      rw [Span.widen_of_expressible hx']
      exact he.removed_between_le
    · -- every edit covers the smallest one, so an expressible one covers it widened
      exact ((he.covers_between ho).widen hx).removed_le
  · exact Nat.le_trans (Span.removed_widen_le _ _) (Nat.add_le_add_right he.removed_between_le 2)

/-- To turn "a\rb\r\n" into "a\r\n" it is enough to take out "\rb"; `between` takes out "b\r\n". -/
theorem between_not_smallest :
    let d : Snapshot := { uri := "", text := "a\rb\r\n" }
    ∃ e : Span, e.Turns d.chars "a\r\n".toList ∧ e.Expressible d.chars ∧
      e.removed < ((between d "a\r\n").toSpan d).removed :=
  ⟨⟨1, 3, []⟩, ⟨by decide, by decide, by decide⟩, by decide, by decide⟩

end TextEdit

end FormatServer
