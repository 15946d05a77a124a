import FormatServer.Proofs.Edit.Difference

/-!
# Offsets and positions

An offset outside a line break is the offset of its position (`Snapshot.offsetAt_positionAt`). A
client that keeps the text in UTF-16 code units finds it there too: `Snapshot.unitOffset` is where
such a client sees a position, and `unitOffset_positionAt` says that it is the length in code units
of what lies before the offset.
-/

set_option autoImplicit false

namespace FormatServer

theorem Text.units_pos (c : Char) : 0 < Text.units c := by
  unfold Text.units
  split <;> decide

namespace Lines

/-! ## Columns -/

theorem before_utf16Length_take : ∀ (cs : List Char) (k : Nat),
    before cs (Text.utf16Length (cs.take k)) = min k cs.length
  | [], k => by simp [before]
  | c :: cs, 0 => by simp [before, Text.utf16Length]
  | c :: cs, k + 1 => by
    have hc := Text.units_pos c
    have hcol : ((Text.utf16Length ((c :: cs).take (k + 1)) : Nat) : Int) - Text.units c =
        Text.utf16Length (cs.take k) := by
      simp only [List.take_succ_cons, Text.utf16Length]
      omega
    have hpos : ¬ ((Text.utf16Length ((c :: cs).take (k + 1)) : Nat) : Int) ≤ 0 := by
      simp only [List.take_succ_cons, Text.utf16Length]
      omega
    rw [before, if_neg hpos, hcol, before_utf16Length_take cs k, List.length_cons]
    omega

/-! ## Lines -/

theorem length_chars_line (l : Line) : l.chars.length = l.length := by
  simp [Line.chars, Line.length]

theorem chars_cons (l : Line) (ls : List Line) (last : List Char) :
    chars ⟨l :: ls, last⟩ = l.chars ++ chars ⟨ls, last⟩ := by
  simp [chars, List.append_assoc]

/-- An offset after the content of a line and before its end lies inside a break. -/
theorem splitsBreak_of_inside {l : Line} {rest : List Char} {o : Nat}
    (h : l.content.length < o) (hl : o < l.length) :
    splitsBreak (l.chars ++ rest) o = true := by
  obtain ⟨content, ending⟩ := l
  cases ending
  case both =>
    have ho : o = content.length + 1 := by
      simp only [Line.length, Ending.chars, List.length_cons, List.length_nil] at h hl
      omega
    subst ho
    rw [splitsBreak_iff]
    simp [Line.chars, Ending.chars]
  all_goals
    simp only [Line.length, Ending.chars, List.length_cons, List.length_nil] at h hl
    omega

theorem splitsBreak_append_of_le {as bs : List Char} {o : Nat} (h : as.length ≤ o)
    (hs : splitsBreak bs (o - as.length) = true) : splitsBreak (as ++ bs) o = true := by
  rw [splitsBreak_iff] at hs ⊢
  obtain ⟨ho, hr, hn⟩ := hs
  refine ⟨by omega, ?_, ?_⟩
  · rw [List.getElem?_append_right (by omega), show o - 1 - as.length = o - as.length - 1 by omega, hr]
  · rw [List.getElem?_append_right h, hn]

theorem splitsBreak_of_append {as bs : List Char} {o : Nat} (h : as.length < o)
    (hs : splitsBreak (as ++ bs) o = true) : splitsBreak bs (o - as.length) = true := by
  obtain ⟨-, hr, hn⟩ := splitsBreak_iff.1 hs
  refine splitsBreak_iff.2 ⟨by omega, ?_, ?_⟩
  · rwa [List.getElem?_append_right (by omega),
      show o - 1 - as.length = o - as.length - 1 by omega] at hr
  · rwa [List.getElem?_append_right (by omega)] at hn

theorem offset_locate (last : List Char) : ∀ (ls : List Line) (o : Nat),
    o ≤ (chars ⟨ls, last⟩).length → ¬ splitsBreak (chars ⟨ls, last⟩) o = true →
    offset ls last (locate ls last o).1 (locate ls last o).2 = o
  | [], o, ho, _ => by
    have ho' : o ≤ last.length := by simpa [chars] using ho
    rw [locate, offset, before_utf16Length_take, Nat.min_eq_left ho']
  | l :: ls, o, ho, hs => by
    rw [chars_cons] at ho hs
    unfold locate
    split
    · rename_i hlt
      have hin : o ≤ l.content.length :=
        Nat.le_of_not_lt fun hc => hs (splitsBreak_of_inside hc hlt)
      rw [offset, before_utf16Length_take, Nat.min_eq_left hin]
    · rename_i hge
      have hle : l.chars.length ≤ o := by rw [length_chars_line]; omega
      have hrest := offset_locate last ls (o - l.length)
        (by rw [List.length_append, length_chars_line] at ho; omega)
        (fun h => hs (splitsBreak_append_of_le hle (by rwa [length_chars_line])))
      simp only [offset]
      rw [hrest]
      omega

/-! ## Code units before a position -/

theorem utf16Length_locate (last : List Char) : ∀ (ls : List Line) (o : Nat),
    ¬ splitsBreak (chars ⟨ls, last⟩) o = true →
    Text.utf16Length ((ls.take (locate ls last o).1).flatMap Line.chars) + (locate ls last o).2 =
      Text.utf16Length ((chars ⟨ls, last⟩).take o)
  | [], o, _ => by simp [locate, chars, Text.utf16Length]
  | l :: ls, o, hs => by
    rw [chars_cons] at hs ⊢
    unfold locate
    split
    · rename_i hlt
      have hin : o ≤ l.content.length :=
        Nat.le_of_not_lt fun hc => hs (splitsBreak_of_inside hc hlt)
      have htake : (l.chars ++ chars ⟨ls, last⟩).take o = l.content.take o := by
        rw [Line.chars, List.append_assoc, List.take_append_of_le_length hin]
      rw [htake]
      simp [Text.utf16Length]
    · rename_i hge
      have hle : l.chars.length ≤ o := by rw [length_chars_line]; omega
      have hrest := utf16Length_locate last ls (o - l.length)
        (fun h => hs (splitsBreak_append_of_le hle (by rwa [length_chars_line])))
      rw [List.take_append, List.take_of_length_le hle, length_chars_line,
        Text.utf16Length_append, ← hrest]
      simp only [List.take_succ_cons, List.flatMap_cons, Text.utf16Length_append]
      omega

end Lines

namespace Snapshot

/-- Where a client that keeps the text in UTF-16 code units sees a position: as many units on from
the start of its line as its character says. -/
def unitOffset (d : Snapshot) (p : Position) : Nat :=
  Text.utf16Length ((d.lines.closed.take p.line.toNat).flatMap Line.chars) + p.character.toNat

theorem chars_lines (d : Snapshot) : Lines.chars ⟨d.lines.closed, d.lines.last⟩ = d.chars :=
  Lines.chars_ofChars d.chars

theorem positionAt_of_le {d : Snapshot} {o : Nat} (h : o ≤ d.chars.length) :
    d.positionAt o = ⟨(Lines.locate d.lines.closed d.lines.last o).1,
      (Lines.locate d.lines.closed d.lines.last o).2⟩ := by
  simp only [positionAt, clamp, Int.toNat_natCast, Nat.min_eq_left h]

theorem offsetAt_positionAt {d : Snapshot} {o : Nat} (h : o ≤ d.chars.length)
    (hs : ¬ splitsBreak d.chars o = true) : d.offsetAt (d.positionAt o) = o := by
  rw [positionAt_of_le h]
  have hl := Lines.offset_locate d.lines.last d.lines.closed o
    (by rw [chars_lines]; exact h) (by rw [chars_lines]; exact hs)
  simp only [offsetAt, Int.toNat_natCast]
  rw [if_neg (by omega), hl]

theorem unitOffset_positionAt {d : Snapshot} {o : Nat} (h : o ≤ d.chars.length)
    (hs : ¬ splitsBreak d.chars o = true) :
    d.unitOffset (d.positionAt o) = Text.utf16Length (d.chars.take o) := by
  rw [positionAt_of_le h]
  have hl := Lines.utf16Length_locate d.lines.last d.lines.closed o
    (by rw [chars_lines]; exact hs)
  rw [chars_lines] at hl
  simpa only [unitOffset, Int.toNat_natCast] using hl

end Snapshot

end FormatServer
