import FormatServer.Proofs.Document.Lines
import FormatServer.Proofs.Document.Offset

/-!
# Positions of offsets

Every offset has a position in the text (`Snapshot.valid_positionAt`), and a later offset none that
comes earlier (`Snapshot.positionAt_mono`). Back from its position an offset is what it was, moved
into the text, but for one between a carriage return and its line feed, which comes back before the
pair (`Snapshot.offsetAt_positionAt_clamped`).
-/

set_option autoImplicit false

namespace FormatServer

/-- The order of the text: by line, then by character. -/
instance : LE Position where
  le p q := p.line < q.line ∨ p.line = q.line ∧ p.character ≤ q.character

namespace Text

theorem utf16Length_take_le (cs : List Char) (k : Nat) :
    utf16Length (cs.take k) ≤ utf16Length cs := by
  conv => rhs; rw [← List.take_append_drop k cs]
  rw [utf16Length_append]
  omega

theorem utf16Length_take_mono (cs : List Char) {i j : Nat} (h : i ≤ j) :
    utf16Length (cs.take i) ≤ utf16Length (cs.take j) := by
  have hle := utf16Length_take_le (cs.take j) i
  rwa [List.take_take, Nat.min_eq_left h] at hle

end Text

namespace Ending

theorem length_chars_pos (e : Ending) : 0 < e.chars.length := by
  cases e <;> decide

theorem eq_carriageReturn {e : Ending} (h : e.chars[e.chars.length - 1]? = some '\r') :
    e = .carriageReturn := by
  revert h
  cases e <;> decide

end Ending

namespace Lines

theorem count_eq_length_contents (ls : Lines) : ls.count = ls.contents.length := by
  simp [count, contents]

/-! ## Line and column of an offset -/

theorem locate_content (last : List Char) : ∀ (ls : List Line) (o : Nat), ∃ content,
    (ls.map Line.content ++ [last])[(locate ls last o).1]? = some content ∧
      ∃ k, (locate ls last o).2 = Text.utf16Length (content.take k)
  | [], o => ⟨last, rfl, o, rfl⟩
  | l :: ls, o => by
    unfold locate
    split
    · exact ⟨l.content, rfl, o, rfl⟩
    · exact locate_content last ls (o - l.length)

theorem locate_mono (last : List Char) : ∀ (ls : List Line) {i j : Nat}, i ≤ j →
    (locate ls last i).1 < (locate ls last j).1 ∨
      (locate ls last i).1 = (locate ls last j).1 ∧ (locate ls last i).2 ≤ (locate ls last j).2
  | [], _, _, h => .inr ⟨rfl, Text.utf16Length_take_mono last h⟩
  | l :: ls, i, j, h => by
    simp only [locate]
    split <;> split
    · exact .inr ⟨rfl, Text.utf16Length_take_mono l.content h⟩
    · exact .inl (Nat.succ_pos _)
    · omega
    · rcases locate_mono last ls (show i - l.length ≤ j - l.length by omega) with hlt | ⟨heq, hle⟩
      · exact .inl (Nat.succ_lt_succ hlt)
      · exact .inr ⟨congrArg Nat.succ heq, hle⟩

/-! ## Between a carriage return and its line feed -/

/-- A break is split only in the line that it closes: a content holds no break, and a carriage
return that ends a line has no line feed after it. -/
theorem WellCut.splitsBreak_cons {l : Line} {ls : List Line} {last : List Char} {o : Nat}
    (h : WellCut (l :: ls) last) (hs : splitsBreak (chars ⟨l :: ls, last⟩) o = true) :
    l.content.length < o ∧ o < l.length ∨
      l.length < o ∧ splitsBreak (chars ⟨ls, last⟩) (o - l.length) = true := by
  obtain ⟨ho, hr, hn⟩ := splitsBreak_iff.1 hs
  rw [chars_cons] at hr hn
  cases h with
  | closed content whole rest =>
    have hlen := length_chars_line l
    rcases Nat.lt_trichotomy o l.length with hlt | heq | hgt
    · -- the carriage return is not in the content
      refine .inl ⟨Nat.lt_of_not_le fun hle => ?_, hlt⟩
      rw [List.getElem?_append_left (by omega), Line.chars,
        List.getElem?_append_left (by omega)] at hr
      exact content.1 (List.mem_of_getElem? hr)
    · -- the carriage return closes the line alone, and the line feed follows
      have hend := l.ending.length_chars_pos
      have hl : l.length = l.content.length + l.ending.chars.length := rfl
      rw [List.getElem?_append_left (by omega), Line.chars, List.getElem?_append_right (by omega),
        show o - 1 - l.content.length = l.ending.chars.length - 1 by omega] at hr
      rw [List.getElem?_append_right (by omega), show o - l.chars.length = 0 by omega,
        ← List.head?_eq_getElem?] at hn
      exact absurd hn (whole (Ending.eq_carriageReturn hr))
    · rw [chars_cons] at hs
      exact .inr ⟨hgt, hlen ▸ splitsBreak_of_append (by omega) hs⟩

theorem WellCut.locate_of_splitsBreak {ls : List Line} {last : List Char} (h : WellCut ls last) :
    ∀ {o : Nat}, splitsBreak (chars ⟨ls, last⟩) o = true →
      locate ls last o = locate ls last (o - 1) := by
  induction h with
  | last content =>
    intro o hs
    exact absurd (List.mem_of_getElem? (splitsBreak_iff.1 hs).2.1) content.1
  | @closed l ls last content whole rest ih =>
    intro o hs
    rcases (WellCut.closed content whole rest).splitsBreak_cons hs with ⟨hc, hlt⟩ | ⟨hgt, hs⟩
    · simp only [locate, if_pos hlt, if_pos (show o - 1 < l.length by omega)]
      rw [List.take_of_length_le (by omega), List.take_of_length_le (by omega)]
    · simp only [locate, if_neg (show ¬ o < l.length by omega),
        if_neg (show ¬ o - 1 < l.length by omega)]
      rw [ih hs, show o - l.length - 1 = o - 1 - l.length by omega]

end Lines

namespace Snapshot

/-- A position in the text: its line exists, and its character is the length in code units of a
beginning of that line's content. -/
structure Valid (d : Snapshot) (p : Position) : Prop where
  line_nonneg : 0 ≤ p.line
  line_lt : p.line < d.lineCount
  character : ∃ content, d.lines.contents[p.line.toNat]? = some content ∧
    ∃ beginning, beginning <+: content ∧ p.character = Text.utf16Length beginning

theorem valid_positionAt (d : Snapshot) (offset : Int) : d.Valid (d.positionAt offset) := by
  obtain ⟨content, hc, k, hk⟩ :=
    Lines.locate_content d.lines.last d.lines.closed (d.clamp offset)
  have hlt := (List.getElem?_eq_some_iff.1 hc).1
  refine ⟨Int.natCast_nonneg _, ?_, content, ?_, content.take k, List.take_prefix _ _, ?_⟩
  · rw [lineCount, Lines.count_eq_length_contents]
    exact Int.ofNat_lt.2 hlt
  · exact hc
  · exact congrArg Nat.cast hk

theorem clamp_mono (d : Snapshot) {i j : Int} (h : i ≤ j) : d.clamp i ≤ d.clamp j := by
  unfold clamp
  omega

theorem positionAt_mono (d : Snapshot) {i j : Int} (h : i ≤ j) :
    d.positionAt i ≤ d.positionAt j := by
  rcases Lines.locate_mono d.lines.last d.lines.closed (d.clamp_mono h) with hlt | ⟨heq, hle⟩
  · exact .inl (Int.ofNat_lt.2 hlt)
  · exact .inr ⟨congrArg Nat.cast heq, Int.ofNat_le.2 hle⟩

theorem positionAt_clamp (d : Snapshot) (offset : Int) :
    d.positionAt (d.clamp offset) = d.positionAt offset := by
  have h : d.clamp (d.clamp offset) = d.clamp offset := by
    unfold clamp
    omega
  simp only [positionAt, h]

theorem wellCut_lines (d : Snapshot) : Lines.WellCut d.lines.closed d.lines.last :=
  Lines.wellCut_ofChars d.chars

theorem positionAt_of_splitsBreak {d : Snapshot} {o : Nat} (h : splitsBreak d.chars o = true) :
    d.positionAt o = d.positionAt (o - 1 : Nat) := by
  have ho := lt_length_of_splitsBreak h
  rw [positionAt_of_le (by omega), positionAt_of_le (by omega)]
  rw [← chars_lines] at h
  rw [d.wellCut_lines.locate_of_splitsBreak h]

theorem offsetAt_positionAt_clamped (d : Snapshot) (offset : Int) :
    let o := (max 0 (min offset d.chars.length)).toNat
    d.offsetAt (d.positionAt offset) = (if splitsBreak d.chars o then o - 1 else o) ∧
      d.Valid (d.positionAt offset) ∧ ∀ content ∈ d.lines.contents, Unbroken content := by
  intro o
  have ho : o = d.clamp offset := by
    simp only [o, clamp]
    omega
  have hle : o ≤ d.chars.length := by omega
  refine ⟨?_, d.valid_positionAt offset, fun _ => Lines.unbroken_of_mem_contents⟩
  rw [← d.positionAt_clamp, ← ho]
  split
  · rename_i hs
    rw [positionAt_of_splitsBreak hs]
    exact offsetAt_positionAt (by omega)
      (not_splitsBreak_of_carriageReturn (splitsBreak_iff.1 hs).2.1)
  · rename_i hs
    exact offsetAt_positionAt hle hs

example : (⟨"", "a\r\nb", plainText, none⟩ : Snapshot).positionAt 2 = ⟨0, 1⟩ := by decide

end Snapshot

end FormatServer
