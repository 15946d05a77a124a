import FormatServer.Edit.Text

/-!
# Span edits are right

`Span.between` turns a text into the candidate (`apply_between`). Widening over a line break keeps what
an edit does (`apply_widen`), and afterwards neither end lies inside a break
(`not_splitsBreak_start_widen`, `not_splitsBreak_stop_widen`). A widened edit changes nothing only if
the text and the candidate are equal (`widen_between_isEmpty_iff`).
-/

set_option autoImplicit false

namespace FormatServer

/-! ## Split line breaks -/

theorem splitsBreak_iff {text : List Char} {o : Nat} :
    splitsBreak text o = true ↔ 0 < o ∧ text[o - 1]? = some '\r' ∧ text[o]? = some '\n' := by
  simp [splitsBreak, and_assoc]

theorem not_splitsBreak_of_carriageReturn {text : List Char} {o : Nat}
    (h : text[o]? = some '\r') : ¬ splitsBreak text o = true := by
  intro hs
  rw [(splitsBreak_iff.1 hs).2.2] at h
  cases h

theorem lt_length_of_splitsBreak {text : List Char} {o : Nat} (h : splitsBreak text o = true) :
    o < text.length :=
  (List.getElem?_eq_some_iff.1 (splitsBreak_iff.1 h).2.2).1

theorem take_of_splitsBreak {text : List Char} {o : Nat} (h : splitsBreak text o = true) :
    text.take o = text.take (o - 1) ++ ['\r'] := by
  obtain ⟨ho, hr, -⟩ := splitsBreak_iff.1 h
  obtain ⟨n, rfl⟩ : ∃ n, o = n + 1 := ⟨o - 1, by omega⟩
  rw [Nat.add_sub_cancel] at hr ⊢
  rw [List.take_add_one, hr]
  rfl

theorem drop_of_splitsBreak {text : List Char} {o : Nat} (h : splitsBreak text o = true) :
    text.drop o = '\n' :: text.drop (o + 1) := by
  obtain ⟨hlt, hn⟩ := List.getElem?_eq_some_iff.1 (splitsBreak_iff.1 h).2.2
  rw [List.drop_eq_getElem_cons hlt, hn]

namespace Span

/-! ## Common beginnings -/

theorem common_le_left : ∀ as bs : List Char, common as bs ≤ as.length
  | [], _ => Nat.zero_le _
  | _ :: _, [] => Nat.zero_le _
  | a :: as, b :: bs => by
    simp only [common, List.length_cons]
    split
    · exact Nat.succ_le_succ (common_le_left as bs)
    · exact Nat.zero_le _

theorem common_le_right : ∀ as bs : List Char, common as bs ≤ bs.length
  | [], _ => Nat.zero_le _
  | _ :: _, [] => Nat.zero_le _
  | a :: as, b :: bs => by
    simp only [common, List.length_cons]
    split
    · exact Nat.succ_le_succ (common_le_right as bs)
    · exact Nat.zero_le _

theorem take_common : ∀ as bs : List Char, as.take (common as bs) = bs.take (common as bs)
  | [], _ => by simp [common]
  | _ :: _, [] => rfl
  | a :: as, b :: bs => by
    by_cases h : a = b
    · subst h
      simp only [common, ↓reduceIte, List.take_succ_cons]
      rw [take_common as bs]
    · simp only [common, if_neg h, List.take_zero]

theorem common_self : ∀ as : List Char, common as as = as.length
  | [] => rfl
  | _ :: as => by simp only [common, ↓reduceIte, List.length_cons, common_self as]

/-- What two texts end with, as the common beginning of the reversed texts. -/
theorem drop_common_reverse (as bs : List Char) :
    as.drop (as.length - common as.reverse bs.reverse) =
      bs.drop (bs.length - common as.reverse bs.reverse) := by
  have h := congrArg List.reverse (take_common as.reverse bs.reverse)
  simpa only [List.reverse_take, List.reverse_reverse, List.length_reverse] using h

/-! ## The smallest edit -/

theorem start_le_stop_between (source candidate : List Char) :
    (between source candidate).start ≤ (between source candidate).stop := by
  have h := common_le_left (source.drop (common source candidate)).reverse
    (candidate.drop (common source candidate)).reverse
  have hs := common_le_left source candidate
  simp only [List.length_reverse, List.length_drop] at h
  simp only [between]
  omega

theorem stop_le_length_between (source candidate : List Char) :
    (between source candidate).stop ≤ source.length := by
  simp only [between]
  omega

theorem apply_between (source candidate : List Char) :
    (between source candidate).apply source = candidate := by
  let p := common source candidate
  let rest := source.drop p
  let new := candidate.drop p
  let k := common rest.reverse new.reverse
  have hp : p ≤ source.length := common_le_left source candidate
  have hk : k ≤ rest.length := by
    have := common_le_left rest.reverse new.reverse
    rwa [List.length_reverse] at this
  have hlen : rest.length = source.length - p := List.length_drop
  have htail : source.drop (source.length - k) = new.drop (new.length - k) := by
    rw [← drop_common_reverse rest new, List.drop_drop]
    congr 1
    show source.length - k = p + (rest.length - k)
    omega
  calc (between source candidate).apply source
      = source.take p ++ new.take (new.length - k) ++ source.drop (source.length - k) := rfl
    _ = candidate.take p ++ (new.take (new.length - k) ++ new.drop (new.length - k)) := by
        rw [htail, List.append_assoc, take_common source candidate]
    _ = candidate := by rw [List.take_append_drop, List.take_append_drop]

/-- An edit between its ends that changes nothing gives the text back. -/
theorem apply_of_isEmpty {e : Span} (h : e.isEmpty = true) (source : List Char) :
    e.apply source = source := by
  simp only [isEmpty, Bool.and_eq_true, decide_eq_true_eq, List.isEmpty_iff] at h
  rw [apply, h.1, h.2, List.append_nil, List.take_append_drop]

theorem between_self (source : List Char) :
    between source source = ⟨source.length, source.length, []⟩ := by
  simp [between, common_self]

/-! ## Widening -/

/-- The first half of widening. -/
def widenStart (text : List Char) (e : Span) : Span :=
  if splitsBreak text e.start then ⟨e.start - 1, e.stop, '\r' :: e.text⟩ else e

theorem stop_widenStart (text : List Char) (e : Span) : (widenStart text e).stop = e.stop := by
  unfold widenStart
  split <;> rfl

theorem widen_eq (text : List Char) (e : Span) :
    e.widen text = if splitsBreak text e.stop then
      ⟨(widenStart text e).start, e.stop + 1, (widenStart text e).text ++ ['\n']⟩
    else widenStart text e := by
  rw [← stop_widenStart text e]
  rfl

theorem apply_widenStart (text : List Char) (e : Span) :
    (widenStart text e).apply text = e.apply text := by
  unfold widenStart
  split
  · rename_i h
    simp only [apply]
    rw [take_of_splitsBreak h, List.append_assoc (text.take _) ['\r']]
    rfl
  · rfl

theorem apply_widen (text : List Char) (e : Span) : (e.widen text).apply text = e.apply text := by
  rw [widen_eq, ← apply_widenStart text e]
  split
  · rename_i h
    simp only [apply, stop_widenStart]
    rw [drop_of_splitsBreak h, List.append_assoc, List.append_assoc, List.append_assoc]
    rfl
  · rfl

theorem start_widen (text : List Char) (e : Span) :
    (e.widen text).start = if splitsBreak text e.start then e.start - 1 else e.start := by
  rw [widen_eq]
  unfold widenStart
  split <;> split <;> rfl

theorem stop_widen (text : List Char) (e : Span) :
    (e.widen text).stop = if splitsBreak text e.stop then e.stop + 1 else e.stop := by
  rw [widen_eq]
  unfold widenStart
  split <;> split <;> rfl

theorem not_splitsBreak_start_widen (text : List Char) (e : Span) :
    ¬ splitsBreak text (e.widen text).start = true := by
  rw [start_widen]
  split
  · rename_i h
    exact not_splitsBreak_of_carriageReturn (splitsBreak_iff.1 h).2.1
  · assumption

theorem not_splitsBreak_stop_widen (text : List Char) (e : Span) :
    ¬ splitsBreak text (e.widen text).stop = true := by
  rw [stop_widen]
  split
  · rename_i h
    intro h'
    have hn := (splitsBreak_iff.1 h).2.2
    rw [show e.stop = e.stop + 1 - 1 by omega, (splitsBreak_iff.1 h').2.1] at hn
    cases hn
  · assumption

theorem stop_widen_le {text : List Char} {e : Span} (h : e.stop ≤ text.length) :
    (e.widen text).stop ≤ text.length := by
  rw [stop_widen]
  split
  · rename_i hs
    exact lt_length_of_splitsBreak hs
  · exact h

theorem start_le_stop_widen {text : List Char} {e : Span} (h : e.start ≤ e.stop) :
    (e.widen text).start ≤ (e.widen text).stop := by
  rw [start_widen, stop_widen]
  split <;> split <;> omega

/-- An edit that changes something still does so when it is widened, and one at the end of the text
stays as it is. -/
theorem widen_between_isEmpty_iff {source candidate : List Char} :
    ((between source candidate).widen source).isEmpty = true ↔ candidate = source := by
  refine ⟨fun h => ?_, ?_⟩
  · rw [← apply_between source candidate, ← apply_widen, apply_of_isEmpty h]
  · rintro rfl
    rw [between_self, widen_eq]
    simp [widenStart, splitsBreak, isEmpty]

end Span

end FormatServer
