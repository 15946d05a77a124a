import FormatServer.Proofs.Document.Position

/-!
# Normal forms of positions

A position that a client sends may be any two integers. Its normal form (`Snapshot.Normal`) is the
position itself if it is in the text; a line outside the text is moved to the nearest end of it, a
character outside its line to the nearest end of the line's content, and a character inside a
surrogate pair behind the pair. The position of the offset of a position is its normal form
(`Snapshot.positionAt_offsetAt_normal`).
-/

set_option autoImplicit false

namespace FormatServer

namespace Text

/-- A column of a text is that of a beginning of the text, or lies inside a character. -/
theorem column_cases : ∀ (cs : List Char) {column : Int}, 0 ≤ column → column ≤ utf16Length cs →
    (∃ beginning, beginning <+: cs ∧ column = utf16Length beginning) ∨
      ∃ left c right, cs = left ++ c :: right ∧ units c = 2 ∧ column = utf16Length left + 1
  | [], column, h0, h => by
    refine .inl ⟨[], List.nil_prefix, ?_⟩
    simp only [utf16Length] at h ⊢
    omega
  | c :: cs, column, h0, h => by
    have hc : units c = 1 ∨ units c = 2 := by
      unfold units
      split <;> simp
    simp only [utf16Length] at h
    by_cases hzero : column = 0
    · exact .inl ⟨[], List.nil_prefix, hzero⟩
    by_cases hinside : units c = 2 ∧ column = 1
    · exact .inr ⟨[], c, cs, rfl, hinside.1, hinside.2⟩
    rcases column_cases cs (show 0 ≤ column - units c by omega) (by omega) with
      ⟨beginning, hprefix, hcolumn⟩ | ⟨left, c', right, rfl, hc', hcolumn⟩
    · refine .inl ⟨c :: beginning, (List.prefix_cons_inj c).2 hprefix, ?_⟩
      simp only [utf16Length]
      omega
    · refine .inr ⟨c :: left, c', right, rfl, hc', ?_⟩
      simp only [utf16Length]
      omega

end Text

namespace Lines

/-! ## Characters before a column -/

theorem before_of_nonpos (cs : List Char) {column : Int} (h : column ≤ 0) :
    before cs column = 0 := by
  cases cs with
  | nil => rfl
  | cons c cs => rw [before, if_pos h]

theorem before_le_length : ∀ (cs : List Char) (column : Int), before cs column ≤ cs.length
  | [], _ => Nat.le_refl _
  | c :: cs, column => by
    rw [before]
    split
    · exact Nat.zero_le _
    · exact Nat.succ_le_succ (before_le_length cs _)

theorem before_of_length_le : ∀ (cs : List Char) {column : Int},
    Text.utf16Length cs ≤ column → before cs column = cs.length
  | [], _, _ => rfl
  | c :: cs, column, h => by
    have hc := Text.units_pos c
    simp only [Text.utf16Length] at h
    rw [before, if_neg (by omega), before_of_length_le cs (by omega), List.length_cons]

theorem before_prefix {beginning cs : List Char} (h : beginning <+: cs) :
    before cs (Text.utf16Length beginning) = beginning.length := by
  obtain ⟨rest, rfl⟩ := h
  have htake := before_utf16Length_take (beginning ++ rest) beginning.length
  rw [List.take_left, List.length_append] at htake
  omega

/-- A column inside a character counts the character. -/
theorem before_inside (c : Char) (right : List Char) : ∀ left : List Char,
    before (left ++ c :: right) (Text.utf16Length left + 1) = left.length + 1
  | [] => by
    have hc := Text.units_pos c
    rw [List.nil_append, before, if_neg (by simp [Text.utf16Length]),
      before_of_nonpos right (by simp only [Text.utf16Length]; omega)]
    rfl
  | c' :: left => by
    have hc := Text.units_pos c'
    have hcolumn : ((Text.utf16Length (c' :: left) : Nat) : Int) + 1 - Text.units c' =
        Text.utf16Length left + 1 := by
      simp only [Text.utf16Length]
      omega
    rw [List.cons_append, before, if_neg (by simp only [Text.utf16Length]; omega), hcolumn,
      before_inside c right left, List.length_cons]

/-! ## The offset of a column of a line -/

theorem offset_le (last : List Char) : ∀ (ls : List Line) (n : Nat) (column : Int),
    offset ls last n column ≤ (chars ⟨ls, last⟩).length
  | [], 0, column => before_le_length last column
  | [], _ + 1, _ => Nat.le_refl _
  | l :: ls, 0, column => by
    have h := before_le_length l.content column
    rw [chars_cons, List.length_append, length_chars_line, offset, Line.length]
    omega
  | l :: ls, n + 1, column => by
    have h := offset_le last ls n column
    rw [chars_cons, List.length_append, length_chars_line, offset]
    omega

theorem offset_of_length_lt (last : List Char) (column : Int) : ∀ (ls : List Line) {n : Nat},
    ls.length < n → offset ls last n column = (chars ⟨ls, last⟩).length
  | [], _ + 1, _ => rfl
  | l :: ls, n + 1, h => by
    rw [chars_cons, List.length_append, length_chars_line, offset,
      offset_of_length_lt last column ls (Nat.lt_of_succ_lt_succ h)]

theorem locate_zero (ls : List Line) (last : List Char) : locate ls last 0 = (0, 0) := by
  cases ls with
  | nil => rfl
  | cons l ls =>
    have hpos := l.ending.length_chars_pos
    rw [locate, if_pos (by rw [Line.length]; omega)]
    rfl

theorem locate_length (last : List Char) : ∀ ls : List Line,
    locate ls last (chars ⟨ls, last⟩).length = (ls.length, Text.utf16Length last)
  | [] => by
    rw [locate, show chars ⟨[], last⟩ = last from rfl, List.take_length]
    rfl
  | l :: ls => by
    rw [chars_cons, List.length_append, length_chars_line, locate, if_neg (by omega),
      Nat.add_sub_cancel_left, locate_length last ls]
    rfl

/-- The offset of a column of a line is in the content of that line. -/
theorem locate_offset (last : List Char) (column : Int) {content : List Char} :
    ∀ (ls : List Line) {n : Nat}, (ls.map Line.content ++ [last])[n]? = some content →
      locate ls last (offset ls last n column) =
        (n, Text.utf16Length (content.take (before content column)))
  | [], 0, h => by
    cases h
    rfl
  | [], _ + 1, h => by cases h
  | l :: ls, 0, h => by
    cases h
    have hle := before_le_length l.content column
    have hpos := l.ending.length_chars_pos
    rw [offset, locate, if_pos (by rw [Line.length]; omega)]
  | l :: ls, n + 1, h => by
    rw [offset, locate, if_neg (by omega), Nat.add_sub_cancel_left, locate_offset last column ls h]

theorem WellCut.not_splitsBreak_offset {ls : List Line} {last : List Char} (h : WellCut ls last)
    (column : Int) : ∀ n : Nat, ¬ splitsBreak (chars ⟨ls, last⟩) (offset ls last n column) = true := by
  induction h with
  | last content =>
    intro n hs
    exact content.1 (List.mem_of_getElem? (splitsBreak_iff.1 hs).2.1)
  | @closed l ls last content whole rest ih =>
    intro n hs
    have hcut := (WellCut.closed content whole rest).splitsBreak_cons hs
    cases n with
    | zero =>
      have hle := before_le_length l.content column
      rw [offset] at hcut
      rw [Line.length] at hcut
      omega
    | succ n =>
      -- The offset is behind the break of `l`, and a break in the rest is excluded by induction.
      rw [offset] at hcut
      rcases hcut with ⟨-, hlt⟩ | ⟨-, hs⟩
      · omega
      · rw [Nat.add_sub_cancel_left] at hs
        exact ih n hs

end Lines

namespace Snapshot

variable {d : Snapshot}

/-- What a position is moved to in a document. -/
inductive Normal (d : Snapshot) : Position → Position → Prop where
  /-- A position in the text stays. -/
  | valid {p : Position} (h : d.Valid p) : Normal d p p
  /-- A line before the first one. -/
  | above {p : Position} (h : p.line < 0) : Normal d p ⟨0, 0⟩
  /-- A line after the last one: the end of the text. -/
  | below {p : Position} (h : d.lineCount ≤ p.line) :
      Normal d p ⟨d.lineCount - 1, Text.utf16Length d.lines.last⟩
  /-- A character before the line. -/
  | left {n : Nat} {character : Int} {content : List Char}
      (line : d.lines.contents[n]? = some content) (h : character < 0) :
      Normal d ⟨n, character⟩ ⟨n, 0⟩
  /-- A character after the content of the line. -/
  | right {n : Nat} {character : Int} {content : List Char}
      (line : d.lines.contents[n]? = some content) (h : Text.utf16Length content < character) :
      Normal d ⟨n, character⟩ ⟨n, Text.utf16Length content⟩
  /-- A character between the halves of a surrogate pair. -/
  | inside {n : Nat} {character : Int} {beginning rest : List Char} {c : Char}
      (line : d.lines.contents[n]? = some (beginning ++ c :: rest)) (pair : Text.units c = 2)
      (h : character = Text.utf16Length beginning + 1) :
      Normal d ⟨n, character⟩ ⟨n, character + 1⟩

/-! ## Offsets of positions -/

theorem offsetAt_of_neg {p : Position} (h : p.line < 0) : d.offsetAt p = 0 := if_pos h

theorem offsetAt_line (d : Snapshot) (n : Nat) (character : Int) :
    d.offsetAt ⟨n, character⟩ = Lines.offset d.lines.closed d.lines.last n character :=
  if_neg (Int.not_lt.2 (Int.natCast_nonneg n))

theorem offsetAt_of_lineCount_le {p : Position} (h : d.lineCount ≤ p.line) :
    d.offsetAt p = d.chars.length := by
  obtain ⟨line, character⟩ := p
  obtain ⟨n, rfl⟩ := Int.eq_ofNat_of_zero_le (Int.le_trans (Int.natCast_nonneg _) h)
  have hn : d.lines.closed.length < n := Int.ofNat_le.1 h
  rw [offsetAt_line, Lines.offset_of_length_lt _ _ _ hn, chars_lines]

theorem offsetAt_le (d : Snapshot) (p : Position) : d.offsetAt p ≤ d.chars.length := by
  rw [← chars_lines]
  unfold offsetAt
  split
  · exact Nat.zero_le _
  · exact Lines.offset_le _ _ _ _

theorem not_splitsBreak_offsetAt (d : Snapshot) (p : Position) :
    ¬ splitsBreak d.chars (d.offsetAt p) = true := by
  unfold offsetAt
  split
  · exact fun hs => absurd (splitsBreak_iff.1 hs).1 (Nat.lt_irrefl 0)
  · rw [← chars_lines]
    exact d.wellCut_lines.not_splitsBreak_offset _ _

/-! ## And back -/

theorem positionAt_offsetAt_line {n : Nat} {content : List Char}
    (h : d.lines.contents[n]? = some content) (character : Int) :
    d.positionAt (d.offsetAt ⟨n, character⟩) =
      ⟨n, Text.utf16Length (content.take (Lines.before content character))⟩ := by
  rw [positionAt_of_le (d.offsetAt_le _), offsetAt_line, Lines.locate_offset _ _ _ h]

theorem positionAt_length (d : Snapshot) :
    d.positionAt d.chars.length = ⟨d.lineCount - 1, Text.utf16Length d.lines.last⟩ := by
  rw [positionAt_of_le (Nat.le_refl _), ← chars_lines, Lines.locate_length]
  simp [lineCount, Lines.count]

theorem positionAt_offsetAt_of_valid {p : Position} (h : d.Valid p) :
    d.positionAt (d.offsetAt p) = p := by
  obtain ⟨line, character⟩ := p
  obtain ⟨hnonneg, -, content, hline, beginning, hprefix, hcharacter⟩ := h
  obtain ⟨n, rfl⟩ := Int.eq_ofNat_of_zero_le hnonneg
  replace hline : d.lines.contents[n]? = some content := hline
  replace hcharacter : character = Text.utf16Length beginning := hcharacter
  rw [positionAt_offsetAt_line hline, hcharacter, Lines.before_prefix hprefix,
    ← List.prefix_iff_eq_take.1 hprefix]

theorem Normal.eq {p q : Position} (h : d.Normal p q) : q = d.positionAt (d.offsetAt p) := by
  cases h with
  | valid h => exact (positionAt_offsetAt_of_valid h).symm
  | above h =>
    rw [offsetAt_of_neg h, positionAt_of_le (Nat.zero_le _), Lines.locate_zero]
    rfl
  | below h => rw [offsetAt_of_lineCount_le h, positionAt_length]
  | left line h =>
    rw [positionAt_offsetAt_line line, Lines.before_of_nonpos _ (Int.le_of_lt h)]
    rfl
  | right line h =>
    rw [positionAt_offsetAt_line line, Lines.before_of_length_le _ (Int.le_of_lt h),
      List.take_length]
  | @inside n character beginning rest c line pair h =>
    have htake : (beginning ++ c :: rest).take (beginning.length + 1) = beginning ++ [c] :=
      List.take_length_add_append 1
    have hlength : Text.utf16Length (beginning ++ [c]) = Text.utf16Length beginning + 2 := by
      rw [Text.utf16Length_append, ← pair]
      rfl
    rw [positionAt_offsetAt_line line, h, Lines.before_inside, htake, hlength]
    exact congrArg (Position.mk n) (by omega)

theorem normal_positionAt (d : Snapshot) (p : Position) :
    d.Normal p (d.positionAt (d.offsetAt p)) := by
  have moved : ∀ {q}, d.Normal p q → d.Normal p (d.positionAt (d.offsetAt p)) := fun h => h.eq ▸ h
  obtain ⟨line, character⟩ := p
  by_cases habove : line < 0
  · exact moved (.above habove)
  by_cases hbelow : d.lineCount ≤ line
  · exact moved (.below hbelow)
  obtain ⟨n, rfl⟩ := Int.eq_ofNat_of_zero_le (Int.not_lt.1 habove)
  have hn : n < d.lines.contents.length := by
    rw [← Lines.count_eq_length_contents]
    exact Int.ofNat_lt.1 (Int.not_le.1 hbelow)
  have hline := List.getElem?_eq_getElem hn
  by_cases hleft : character < 0
  · exact moved (.left hline hleft)
  by_cases hright : Text.utf16Length d.lines.contents[n] < character
  · exact moved (.right hline hright)
  rcases Text.column_cases d.lines.contents[n] (Int.not_lt.1 hleft) (Int.not_lt.1 hright) with
    ⟨beginning, hprefix, hcharacter⟩ | ⟨beginning, c, rest, hcontent, hpair, hcharacter⟩
  · exact moved (.valid ⟨Int.not_lt.1 habove, Int.not_le.1 hbelow, _, hline, beginning, hprefix,
      hcharacter⟩)
  · exact moved (.inside (hcontent ▸ hline) hpair hcharacter)

/-- Every position has one normal form, the position of its offset. It is the position itself only in
the text, and nothing is moved twice. -/
theorem positionAt_offsetAt_normal (d : Snapshot) (p : Position) :
    let q := d.positionAt (d.offsetAt p)
    (∀ r, d.Normal p r ↔ r = q) ∧ (q = p ↔ d.Valid p) ∧ d.positionAt (d.offsetAt q) = q ∧
      ¬ splitsBreak d.chars (d.offsetAt p) = true := by
  intro q
  refine ⟨fun r => ⟨Normal.eq, ?_⟩, ⟨?_, positionAt_offsetAt_of_valid⟩, ?_, ?_⟩
  · rintro rfl
    exact d.normal_positionAt p
  · intro h
    exact h ▸ d.valid_positionAt _
  · exact positionAt_offsetAt_of_valid (d.valid_positionAt _)
  · exact d.not_splitsBreak_offsetAt p

end Snapshot

end FormatServer
