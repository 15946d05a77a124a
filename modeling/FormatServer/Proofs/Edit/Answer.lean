import FormatServer.Proofs.Document.Offset

/-!
# Edits of a document are right

`TextEdit.between` turns the text of a document into the candidate, for a client that finds
positions as the server does (`apply_between`) and for one that cuts the text in UTF-16 code units
(`applyUnits_between`). It counts as empty only if the candidate is the text itself
(`isEmpty_between_iff`): two offsets never fall together when they become positions.
-/

set_option autoImplicit false

namespace FormatServer

namespace Text

theorem utf16_append (cs ds : List Char) : utf16 (cs ++ ds) = utf16 cs ++ utf16 ds := by
  simp only [utf16, List.flatMap_append]

theorem take_utf16 (cs : List Char) (k : Nat) :
    (utf16 cs).take (utf16Length (cs.take k)) = utf16 (cs.take k) := by
  have h : utf16 cs = utf16 (cs.take k) ++ utf16 (cs.drop k) := by
    rw [← utf16_append, List.take_append_drop]
  rw [h, List.take_left' (length_utf16 _)]

theorem drop_utf16 (cs : List Char) (k : Nat) :
    (utf16 cs).drop (utf16Length (cs.take k)) = utf16 (cs.drop k) := by
  have h : utf16 cs = utf16 (cs.take k) ++ utf16 (cs.drop k) := by
    rw [← utf16_append, List.take_append_drop]
  rw [h, List.drop_left' (length_utf16 _)]

end Text

namespace TextEdit

/-- The code units of the text after a client that keeps it in UTF-16 has applied the edit. -/
def applyUnits (e : TextEdit) (d : Snapshot) : List UInt16 :=
  (Text.utf16 d.chars).take (d.unitOffset e.range.start) ++ Text.utf16 e.newText.toList ++
    (Text.utf16 d.chars).drop (d.unitOffset e.range.stop)

/-- The span of a document that is replaced by a candidate. -/
def span (d : Snapshot) (candidate : String) : Span :=
  (Span.between d.chars candidate.toList).widen d.chars

theorem stop_span_le (d : Snapshot) (candidate : String) :
    (span d candidate).stop ≤ d.chars.length :=
  Span.stop_widen_le (Span.stop_le_length_between _ _)

theorem start_span_le (d : Snapshot) (candidate : String) :
    (span d candidate).start ≤ d.chars.length :=
  Nat.le_trans (Span.start_le_stop_widen (Span.start_le_stop_between _ _)) (stop_span_le d candidate)

theorem apply_span (d : Snapshot) (candidate : String) :
    (span d candidate).apply d.chars = candidate.toList := by
  rw [span, Span.apply_widen, Span.apply_between]

/-! ## Where the edit starts and stops -/

theorem offsetAt_start_between (d : Snapshot) (candidate : String) :
    d.offsetAt (between d candidate).range.start = (span d candidate).start :=
  Snapshot.offsetAt_positionAt (start_span_le d candidate) (Span.not_splitsBreak_start_widen _ _)

theorem offsetAt_stop_between (d : Snapshot) (candidate : String) :
    d.offsetAt (between d candidate).range.stop = (span d candidate).stop :=
  Snapshot.offsetAt_positionAt (stop_span_le d candidate) (Span.not_splitsBreak_stop_widen _ _)

theorem unitOffset_start_between (d : Snapshot) (candidate : String) :
    d.unitOffset (between d candidate).range.start =
      Text.utf16Length (d.chars.take (span d candidate).start) :=
  Snapshot.unitOffset_positionAt (start_span_le d candidate) (Span.not_splitsBreak_start_widen _ _)

theorem unitOffset_stop_between (d : Snapshot) (candidate : String) :
    d.unitOffset (between d candidate).range.stop =
      Text.utf16Length (d.chars.take (span d candidate).stop) :=
  Snapshot.unitOffset_positionAt (stop_span_le d candidate) (Span.not_splitsBreak_stop_widen _ _)

theorem newText_between (d : Snapshot) (candidate : String) :
    (between d candidate).newText.toList = (span d candidate).text := by
  show (String.ofList (span d candidate).text).toList = _
  rw [String.toList_ofList]

/-! ## What the edit does -/

theorem apply_between (d : Snapshot) (candidate : String) :
    (between d candidate).apply d = candidate.toList := by
  rw [apply, offsetAt_start_between, offsetAt_stop_between, newText_between]
  exact apply_span d candidate

theorem applyUnits_between (d : Snapshot) (candidate : String) :
    (between d candidate).applyUnits d = Text.utf16 candidate.toList := by
  rw [applyUnits, unitOffset_start_between, unitOffset_stop_between, newText_between,
    Text.take_utf16, Text.drop_utf16, ← Text.utf16_append, ← Text.utf16_append]
  exact congrArg Text.utf16 (apply_span d candidate)

theorem isEmpty_between (d : Snapshot) (candidate : String) :
    (between d candidate).isEmpty = (span d candidate).isEmpty := by
  have htext : (between d candidate).newText = "" ↔ (span d candidate).text = [] := by
    rw [← newText_between, String.toList_eq_nil_iff]
  have hrange : (between d candidate).range.start = (between d candidate).range.stop ↔
      (span d candidate).start = (span d candidate).stop := by
    refine ⟨fun h => ?_, fun h => ?_⟩
    · rw [← offsetAt_start_between, ← offsetAt_stop_between, h]
    · show d.positionAt (span d candidate).start = d.positionAt (span d candidate).stop
      rw [h]
  rw [Bool.eq_iff_iff]
  simp only [isEmpty, Span.isEmpty, Bool.and_eq_true, decide_eq_true_eq, List.isEmpty_iff, htext,
    hrange]
  exact And.comm

theorem isEmpty_between_iff {d : Snapshot} {candidate : String} :
    (between d candidate).isEmpty = true ↔ candidate = d.text := by
  rw [isEmpty_between, span, Span.widen_between_isEmpty_iff]
  exact String.toList_inj

end TextEdit

end FormatServer
