import FormatServer.Document.Table
import FormatServer.Proofs.Document.CodeUnits

/-!
# The line table cuts the text

The starts that the scan finds are those of the lines of the text (`Lines.startsFrom_ofChars`), and
looking back from the start of the next line finds the end of a line's content
(`Snapshot.lineEnd_eq`), because a carriage return and a line feed stand together only in one break
(`Lines.WellCut.exists_both`). So the table partitions the text, and the positions of offsets and
the offsets of positions are those that one reads off it (`Snapshot.lines_partition`).
-/

set_option autoImplicit false

namespace FormatServer

theorem Text.slice_natCast (cs : List Char) (start stop : Nat) :
    slice cs start stop = (cs.take stop).drop start := rfl

theorem Text.slice_append {before part after : List Char} {start stop : Nat}
    (hstart : start = before.length) (hstop : stop = before.length + part.length) :
    slice (before ++ (part ++ after)) start stop = part := by
  subst hstart hstop
  rw [slice_natCast, ← List.append_assoc, ← List.length_append, List.take_left, List.drop_left]

namespace Lines

variable {ls : List Line} {last : List Char}

/-! ## Starts -/

/-- Number of characters before a line. -/
def startOf (ls : List Line) (i : Nat) : Nat := ((ls.take i).flatMap Line.chars).length

theorem startOf_cons (l : Line) (ls : List Line) (i : Nat) :
    startOf (l :: ls) (i + 1) = l.length + startOf ls i := by
  simp only [startOf, List.take_succ_cons, List.flatMap_cons, List.length_append,
    length_chars_line]

theorem startOf_succ {i : Nat} {l : Line} (h : ls[i]? = some l) :
    startOf ls (i + 1) = startOf ls i + l.length := by
  simp only [startOf, List.take_add_one, h, Option.toList_some, List.flatMap_append,
    List.flatMap_singleton, List.length_append, length_chars_line]

theorem startsFrom_push (k : Nat) (c : Char) (ls : Lines) :
    startsFrom k (ls.push c).closed = k :: (startsFrom (k + 1) ls.closed).tail := by
  obtain ⟨closed, last⟩ := ls
  cases closed with
  | nil => rfl
  | cons l closed =>
    simp only [push, startsFrom, Line.length, List.length_cons, List.tail_cons]
    congr 2
    omega

/-- The scan finds the starts of the lines behind the first one. -/
theorem startsFrom_ofChars (k : Nat) (cs : List Char) :
    startsFrom k (ofChars cs).closed = k :: breakStops k cs := by
  fun_induction ofChars cs generalizing k with
  | case1 => rfl
  | case2 cs ih => rw [pushLine, startsFrom, breakStops, ← ih]; rfl
  | case3 cs hcs ih =>
    rw [pushLine, startsFrom, breakStops, ← ih]
    · rfl
    · exact hcs
  | case4 cs ih => rw [pushLine, startsFrom, breakStops, ← ih]; rfl
  | case5 c cs hboth hr hn ih =>
    rw [startsFrom_push, ih, breakStops]
    · rfl
    · exact hboth
    · exact hr
    · exact hn

theorem length_startsFrom (k : Nat) : ∀ ls : List Line, (startsFrom k ls).length = ls.length + 1
  | [] => rfl
  | _ :: ls => congrArg Nat.succ (length_startsFrom _ ls)

theorem getElem?_startsFrom : ∀ (ls : List Line) (k : Nat) {i : Nat}, i ≤ ls.length →
    (startsFrom k ls)[i]? = some (k + startOf ls i)
  | [], _, 0, _ => rfl
  | _ :: _, _, 0, _ => rfl
  | l :: ls, k, i + 1, h => by
    rw [startsFrom, List.getElem?_cons_succ, getElem?_startsFrom ls _ (Nat.le_of_succ_le_succ h),
      startOf_cons, Nat.add_assoc]

theorem startOf_mono (ls : List Line) {i j : Nat} (h : i ≤ j) : startOf ls i ≤ startOf ls j := by
  obtain ⟨k, rfl⟩ := Nat.exists_eq_add_of_le h
  rw [startOf, startOf, List.take_add, List.flatMap_append, List.length_append]
  exact Nat.le_add_right _ _

theorem le_of_mem_startsFrom {s : Nat} : ∀ (ls : List Line) {k : Nat}, s ∈ startsFrom k ls → k ≤ s
  | [], _, h => (List.mem_singleton.1 h) ▸ Nat.le_refl _
  | _ :: ls, _, h => by
    rcases List.mem_cons.1 h with rfl | h
    · exact Nat.le_refl _
    · exact Nat.le_of_add_right_le (le_of_mem_startsFrom ls h)

theorem startsFrom_increasing : ∀ (ls : List Line) (k : Nat), (startsFrom k ls).Pairwise (· < ·)
  | [], _ => List.pairwise_singleton _ _
  | l :: ls, k => by
    refine List.pairwise_cons.2 ⟨fun s hs => ?_, startsFrom_increasing ls _⟩
    have hle := le_of_mem_startsFrom ls hs
    have hpos := l.ending.length_chars_pos
    rw [Line.length] at hle
    omega

theorem mem_startsFrom_le (last : List Char) {s : Nat} : ∀ (ls : List Line) {k : Nat},
    s ∈ startsFrom k ls → s ≤ k + (chars ⟨ls, last⟩).length
  | [], _, h => (List.mem_singleton.1 h) ▸ Nat.le_add_right _ _
  | l :: ls, k, h => by
    rw [chars_cons, List.length_append, length_chars_line]
    rcases List.mem_cons.1 h with rfl | h
    · exact Nat.le_add_right _ _
    · have hle := mem_startsFrom_le last ls h
      omega

/-! ## Breaks -/

/-- A closed line stands in the text between what comes before it and after it. -/
theorem exists_line (last : List Char) {l : Line} {i : Nat} (h : ls[i]? = some l) :
    ∃ after, chars ⟨ls, last⟩ = (ls.take i).flatMap Line.chars ++ (l.chars ++ after) := by
  obtain ⟨hi, rfl⟩ := List.getElem?_eq_some_iff.1 h
  refine ⟨chars ⟨ls.drop (i + 1), last⟩, ?_⟩
  conv => lhs; rw [← List.take_append_drop i ls, List.drop_eq_getElem_cons hi]
  simp only [chars, List.flatMap_append, List.flatMap_cons, List.append_assoc]

/-- A carriage return and a line feed that stand together are one break. -/
theorem WellCut.exists_both (h : WellCut ls last) : ∀ {o : Nat},
    splitsBreak (chars ⟨ls, last⟩) o = true → ∃ i l, ls[i]? = some l ∧ l.ending = .both ∧
      o = startOf ls i + l.content.length + 1 := by
  induction h with
  | last content =>
    intro o hs
    exact absurd (List.mem_of_getElem? (splitsBreak_iff.1 hs).2.1) content.1
  | @closed l ls last content whole rest ih =>
    intro o hs
    rcases (WellCut.closed content whole rest).splitsBreak_cons hs with ⟨hc, hlt⟩ | ⟨hgt, hs⟩
    · have hends : l.ending = .both ∧ o = l.content.length + 1 := by
        rw [Line.length] at hlt
        cases hl : l.ending with
        | both =>
          rw [hl] at hlt
          exact ⟨rfl, by simp only [Ending.chars, List.length_cons, List.length_nil] at hlt; omega⟩
        | lineFeed | carriageReturn =>
          rw [hl] at hlt
          simp only [Ending.chars, List.length_cons, List.length_nil] at hlt
          omega
      exact ⟨0, l, rfl, hends.1, by rw [hends.2]; simp [startOf]⟩
    · obtain ⟨i, l', hl', hboth, ho⟩ := ih hs
      exact ⟨i + 1, l', hl', hboth, by rw [startOf_cons]; omega⟩

/-- The end of a closed line is inside a carriage return with its line feed only if these close it. -/
theorem WellCut.splitsBreak_end_iff (h : WellCut ls last) {l : Line} {i : Nat}
    (hl : ls[i]? = some l) :
    splitsBreak (chars ⟨ls, last⟩) (startOf ls i + l.length - 1) = true ↔ l.ending = .both := by
  have hpos := l.ending.length_chars_pos
  have hlength : l.length = l.content.length + l.ending.chars.length := rfl
  constructor
  · intro hs
    obtain ⟨j, l', hl', hboth, ho⟩ := h.exists_both hs
    have hstart := startOf_succ hl
    have hstart' := startOf_succ hl'
    have hlength' : l'.length = l'.content.length + 2 := by rw [Line.length, hboth]; rfl
    rcases Nat.lt_trichotomy i j with hij | rfl | hij
    · have hmono := startOf_mono ls (show i + 1 ≤ j from hij)
      omega
    · rw [hl, Option.some.injEq] at hl'
      exact hl' ▸ hboth
    · have hmono := startOf_mono ls (show j + 1 ≤ i from hij)
      omega
  · intro hboth
    obtain ⟨after, hchars⟩ := exists_line last hl
    have hstart : startOf ls i = ((ls.take i).flatMap Line.chars).length := rfl
    rw [hchars]
    rw [hboth] at hlength
    simp only [Ending.chars, List.length_cons, List.length_nil] at hlength
    refine splitsBreak_append_of_le (by omega) (splitsBreak_of_inside ?_ ?_)
    · omega
    · omega

/-! ## Positions -/

/-- The line of an offset is the last one that starts at the offset or before. -/
theorem countP_startsFrom (last : List Char) : ∀ (ls : List Line) (k o : Nat),
    (startsFrom k ls).countP (· ≤ k + o) = (locate ls last o).1 + 1
  | [], k, o => by simp [startsFrom, locate]
  | l :: ls, k, o => by
    rw [startsFrom, List.countP_cons_of_pos (by simp), locate]
    split
    · next hlt =>
      rw [List.countP_eq_zero.2 fun s hs => ?_]
      have hle := le_of_mem_startsFrom ls hs
      simp only [decide_eq_true_eq]
      omega
    · next hge =>
      have hrest := countP_startsFrom last ls (k + l.length) (o - l.length)
      rw [show k + l.length + (o - l.length) = k + o by omega] at hrest
      rw [hrest]

theorem locate_column (last : List Char) : ∀ (ls : List Line) (o : Nat), ∃ content,
    (ls.map Line.content ++ [last])[(locate ls last o).1]? = some content ∧
      startOf ls (locate ls last o).1 ≤ o ∧
      (locate ls last o).2 = Text.utf16Length (content.take (o - startOf ls (locate ls last o).1))
  | [], o => ⟨last, rfl, Nat.zero_le _, rfl⟩
  | l :: ls, o => by
    unfold locate
    split
    · exact ⟨l.content, rfl, Nat.zero_le _, rfl⟩
    · obtain ⟨content, hcontent, hstart, hcolumn⟩ := locate_column last ls (o - l.length)
      refine ⟨content, hcontent, ?_, ?_⟩
      · rw [startOf_cons]
        omega
      · rw [startOf_cons, hcolumn, Nat.sub_sub]

theorem offset_eq (last : List Char) (column : Int) {content : List Char} :
    ∀ (ls : List Line) {n : Nat}, (ls.map Line.content ++ [last])[n]? = some content →
      offset ls last n column = startOf ls n + before content column
  | [], 0, h => by
    cases h
    exact (Nat.zero_add _).symm
  | [], _ + 1, h => by cases h
  | l :: ls, 0, h => by
    cases h
    exact (Nat.zero_add _).symm
  | l :: ls, n + 1, h => by
    rw [offset, offset_eq last column ls h, startOf_cons, Nat.add_assoc]

/-! ## Counting breaks -/

/-- The offsets between a carriage return and its line feed, counted from the front. -/
theorem countP_splitsBreak_cons (c : Char) (cs : List Char) :
    (List.range (cs.length + 1)).countP (splitsBreak (c :: cs)) =
      (if c = '\r' ∧ cs.head? = some '\n' then 1 else 0) +
        (List.range cs.length).countP (splitsBreak cs) := by
  have hsucc : ∀ o, splitsBreak (c :: cs) (o + 2) = splitsBreak cs (o + 1) := fun o => rfl
  have hhead : splitsBreak (c :: cs) 1 = decide (c = '\r' ∧ cs.head? = some '\n') := by
    rw [Bool.eq_iff_iff, splitsBreak_iff]
    simp [List.head?_eq_getElem?]
  rw [List.range_succ_eq_map, List.countP_cons_of_neg (by simp [splitsBreak]), List.countP_map]
  cases cs with
  | nil => simp
  | cons c' cs =>
    rw [List.length_cons, List.range_succ_eq_map, List.countP_cons,
      List.countP_cons_of_neg (by simp [splitsBreak]), List.countP_map, List.countP_map,
      Nat.add_comm]
    congr 1
    simp [hhead]

theorem count_push (c : Char) (ls : Lines) : (ls.push c).count = ls.count := by
  obtain ⟨closed, last⟩ := ls
  cases closed <;> rfl

theorem count_pushLine (e : Ending) (ls : Lines) : (ls.pushLine e).count = ls.count + 1 := rfl

/-- Every carriage return and every line feed closes a line, those that stand together close one. -/
theorem count_ofChars (cs : List Char) :
    (ofChars cs).count + (List.range cs.length).countP (splitsBreak cs) =
      cs.count '\r' + cs.count '\n' + 1 := by
  fun_induction ofChars cs with
  | case1 => rfl
  | case2 cs ih =>
    rw [List.length_cons, countP_splitsBreak_cons, if_pos ⟨rfl, rfl⟩, List.length_cons,
      countP_splitsBreak_cons, if_neg (by simp), count_pushLine, List.count_cons_self,
      List.count_cons_of_ne (show '\n' ≠ '\r' by decide),
      List.count_cons_of_ne (show '\r' ≠ '\n' by decide), List.count_cons_self]
    omega
  | case3 cs hcs ih =>
    have hhead : cs.head? ≠ some '\n' := fun h => by
      obtain ⟨cs', rfl⟩ := List.head?_eq_some_iff.1 h
      exact hcs cs' rfl
    rw [List.length_cons, countP_splitsBreak_cons, if_neg fun h => hhead h.2, count_pushLine,
      List.count_cons_self, List.count_cons_of_ne (show '\r' ≠ '\n' by decide)]
    omega
  | case4 cs ih =>
    rw [List.length_cons, countP_splitsBreak_cons, if_neg (by simp), count_pushLine,
      List.count_cons_of_ne (show '\n' ≠ '\r' by decide), List.count_cons_self]
    omega
  | case5 c cs hboth hr hn ih =>
    rw [List.length_cons, countP_splitsBreak_cons, if_neg fun h => hr h.1, count_push, Nat.zero_add,
      ih, List.count_cons_of_ne hr, List.count_cons_of_ne hn]

end Lines

/-- Looking two characters back from behind a line break finds a carriage return with its line feed
where the last step would be inside of one. At the very start there is nothing to look back at. -/
theorem slice_pair_iff {cs : List Char} {stop : Nat} (h0 : 0 < stop) (h : stop ≤ cs.length) :
    Text.slice cs (stop - 2) stop = ['\r', '\n'] ↔ splitsBreak cs (stop - 1) = true := by
  rcases Nat.lt_or_ge stop 2 with hlt | hge
  · obtain rfl : stop = 1 := by omega
    constructor
    · intro hs
      have hshort : (Text.slice cs ((1 : Nat) - 2) (1 : Nat)).length ≤ 1 := by
        rw [Text.slice, List.length_drop]
        exact Nat.le_trans (Nat.sub_le _ _) (List.length_take_le 1 cs)
      rw [hs] at hshort
      exact absurd hshort (by decide)
    · intro hs
      exact absurd (splitsBreak_iff.1 hs).1 (Nat.lt_irrefl 0)
  · obtain ⟨n, rfl⟩ := Nat.exists_eq_add_of_le' hge
    have hstart : ((n + 2 : Nat) : Int) - 2 = (n : Nat) := by omega
    have htwo : (cs.take (n + 2)).drop n = [cs[n], cs[n + 1]] := by
      rw [List.drop_take, Nat.add_sub_cancel_left, List.drop_eq_getElem_cons (by omega),
        List.drop_eq_getElem_cons (by omega)]
      rfl
    rw [hstart, Text.slice_natCast, htwo, splitsBreak_iff,
      List.getElem?_eq_getElem (show n + 2 - 1 < cs.length by omega),
      List.getElem?_eq_getElem (show n + 2 - 1 - 1 < cs.length by omega)]
    simp

namespace Snapshot

variable {d : Snapshot} {i : Nat} {l : Line}

/-! ## The table of a document -/

theorem lineStarts_eq (d : Snapshot) : d.lineStarts = Lines.startsFrom 0 d.lines.closed :=
  (Lines.startsFrom_ofChars 0 d.chars).symm

theorem length_lineStarts (d : Snapshot) : d.lineStarts.length = d.lineCount := by
  rw [lineStarts_eq, Lines.length_startsFrom, lineCount, Lines.count]

theorem getElem?_lineStarts (h : i < d.lineCount) :
    d.lineStarts[i]? = some (Lines.startOf d.lines.closed i) := by
  rw [lineStarts_eq, Lines.getElem?_startsFrom _ _ (Nat.le_of_lt_succ h), Nat.zero_add]

theorem lineStart_eq (h : i < d.lineCount) :
    d.lineStart i = Lines.startOf d.lines.closed i := by
  rw [lineStart, getElem?_lineStarts h]
  rfl

theorem lineStart_of_lineCount_le (h : d.lineCount ≤ i) : d.lineStart i = d.chars.length := by
  rw [lineStart, List.getElem?_eq_none (d.length_lineStarts ▸ h)]
  rfl

/-- The line that the table finds is that of the text. -/
theorem lineEnd_of_closed (h : d.lines.closed[i]? = some l) :
    d.lineEnd i = d.lineStart i + l.content.length ∧
      d.lineStart (i + 1) = d.lineStart i + l.length := by
  have hi : i < d.lines.closed.length := (List.getElem?_eq_some_iff.1 h).1
  have hsucc := Lines.startOf_succ h
  have hpos := l.ending.length_chars_pos
  have hlength : l.length = l.content.length + l.ending.chars.length := rfl
  obtain ⟨after, hchars⟩ := Lines.exists_line d.lines.last h
  rw [chars_lines] at hchars
  have hle := congrArg List.length hchars
  rw [List.length_append, List.length_append, Lines.length_chars_line,
    ← Lines.startOf] at hle
  have hpair := d.wellCut_lines.splitsBreak_end_iff h
  rw [chars_lines, ← @slice_pair_iff d.chars _ (by omega) (by omega)] at hpair
  rw [lineStart_eq (Nat.lt_succ_of_lt hi), lineStart_eq (Nat.succ_lt_succ hi)]
  refine ⟨?_, hsucc⟩
  rw [lineEnd, getElem?_lineStarts (Nat.succ_lt_succ hi), hsucc]
  dsimp only
  cases hl : l.ending with
  | both =>
    rw [if_pos (hpair.2 hl), hlength, hl]
    exact Nat.add_sub_cancel _ 2
  | lineFeed | carriageReturn =>
    rw [if_neg (by rw [hpair, hl]; exact nofun), hlength, hl]
    exact Nat.add_sub_cancel _ 1

theorem lineEnd_last (d : Snapshot) : d.lineEnd d.lines.closed.length = d.chars.length := by
  rw [lineEnd, List.getElem?_eq_none (d.length_lineStarts ▸ Nat.le_refl _)]

theorem contents_cases {content : List Char} (h : d.lines.contents[i]? = some content) :
    (∃ l, d.lines.closed[i]? = some l ∧ l.content = content) ∨
      i = d.lines.closed.length ∧ d.lines.last = content := by
  rw [Lines.contents, List.getElem?_append] at h
  split at h
  · rw [List.getElem?_map] at h
    exact .inl (Option.map_eq_some_iff.1 h)
  · next hge =>
    rw [List.length_map] at h hge
    obtain ⟨hi, hlast⟩ := List.getElem?_eq_some_iff.1 h
    have hi : i - d.lines.closed.length = 0 := Nat.lt_one_iff.1 hi
    exact .inr ⟨by omega, by simpa [hi] using hlast⟩

theorem lt_lineCount_iff : i < d.lineCount ↔ ∃ content, d.lines.contents[i]? = some content := by
  rw [lineCount, Lines.count_eq_length_contents, ← Option.isSome_iff_exists]
  simp

/-- The text before a line, its content and the rest. -/
theorem exists_content {content : List Char} (h : d.lines.contents[i]? = some content) :
    ∃ more, d.chars = (d.lines.closed.take i).flatMap Line.chars ++ (content ++ more) ∧
      d.lineStart i = ((d.lines.closed.take i).flatMap Line.chars).length := by
  obtain ⟨more, hchars⟩ := Lines.exists_chars d.lines.last d.lines.closed h
  rw [chars_lines] at hchars
  exact ⟨more, hchars, lineStart_eq (lt_lineCount_iff.2 ⟨content, h⟩)⟩

theorem lineEnd_eq {content : List Char} (h : d.lines.contents[i]? = some content) :
    d.lineEnd i = d.lineStart i + content.length := by
  rcases contents_cases h with ⟨l, hl, rfl⟩ | ⟨rfl, rfl⟩
  · exact (lineEnd_of_closed hl).1
  · rw [lineEnd_last, lineStart_eq (Nat.lt_succ_self _), Lines.startOf, List.take_length,
      ← List.length_append, ← chars_lines]
    rfl

theorem lineContent_eq {content : List Char} (h : d.lines.contents[i]? = some content) :
    d.lineContent i = content := by
  obtain ⟨more, hchars, hstart⟩ := exists_content h
  rw [lineContent, hchars, Text.slice_append hstart (by rw [lineEnd_eq h, hstart])]

theorem lineBreak_eq (h : d.lines.closed[i]? = some l) : d.lineBreak i = l.ending.chars := by
  obtain ⟨after, hchars⟩ := Lines.exists_line d.lines.last h
  have hi : i < d.lines.closed.length := (List.getElem?_eq_some_iff.1 h).1
  have hstart : d.lineStart i = ((d.lines.closed.take i).flatMap Line.chars).length :=
    lineStart_eq (Nat.lt_succ_of_lt hi)
  obtain ⟨hend, hnext⟩ := lineEnd_of_closed h
  rw [chars_lines, Line.chars, List.append_assoc, ← List.append_assoc] at hchars
  rw [lineBreak, hchars]
  apply Text.slice_append
  · rw [hend, hstart, List.length_append]
  · rw [hnext, hstart, List.length_append, Line.length, Nat.add_assoc]

theorem lineBreak_last (d : Snapshot) : d.lineBreak d.lines.closed.length = [] := by
  have hnext := lineStart_of_lineCount_le (Nat.le_refl d.lineCount)
  rw [lineBreak, show d.lines.closed.length + 1 = d.lineCount from rfl, hnext, lineEnd_last,
    Text.slice_natCast, List.take_length, List.drop_length]

theorem contents_of_closed (h : d.lines.closed[i]? = some l) :
    d.lines.contents[i]? = some l.content := by
  have hi : i < d.lines.closed.length := (List.getElem?_eq_some_iff.1 h).1
  rw [Lines.contents, List.getElem?_append_left (by rwa [List.length_map]), List.getElem?_map, h]
  rfl

theorem contents_last (d : Snapshot) :
    d.lines.contents[d.lines.closed.length]? = some d.lines.last := by
  rw [Lines.contents, List.getElem?_append_right (Nat.le_of_eq (List.length_map _)), List.length_map,
    Nat.sub_self]
  rfl

/-- Contents and breaks in turn are the text. -/
theorem flatMap_lines (d : Snapshot) :
    ((List.range d.lineCount).flatMap fun i => d.lineContent i ++ d.lineBreak i) = d.chars := by
  have hclosed : (List.range d.lines.closed.length).map (fun i => d.lineContent i ++ d.lineBreak i) =
      d.lines.closed.map Line.chars := by
    refine List.ext_getElem (by simp) fun i _ hi => ?_
    have hl := List.getElem?_eq_getElem (List.length_map Line.chars ▸ hi)
    rw [List.getElem_map, List.getElem_map, List.getElem_range,
      lineContent_eq (contents_of_closed hl), lineBreak_eq hl, Line.chars]
  rw [lineCount, Lines.count, List.range_succ, List.flatMap_append, List.flatMap_singleton,
    lineContent_eq d.contents_last, lineBreak_last, List.append_nil, List.flatMap_def, hclosed,
    ← List.flatMap_def, ← chars_lines]
  rfl

/-! ## What the table says -/

/-- The position that one reads off the table: the last line that starts at the offset or before, and
the code units from its start to the offset or, inside of its break, to the end of its content. -/
theorem positionAt_eq_table (d : Snapshot) (offset : Int) :
    let o := d.clamp offset
    let line := d.lineOf o
    d.positionAt offset = ⟨line, Text.utf16Length
      (Text.slice d.chars (d.lineStart line) (min o (d.lineEnd line) : Nat))⟩ := by
  intro o line
  have hline : line = (Lines.locate d.lines.closed d.lines.last o).1 := by
    have hcount := Lines.countP_startsFrom d.lines.last d.lines.closed 0 o
    rw [Nat.zero_add, ← lineStarts_eq] at hcount
    rw [show line = d.lineStarts.countP (· ≤ o) - 1 from rfl, hcount, Nat.add_sub_cancel]
  obtain ⟨content, hcontent, hstart, hcolumn⟩ :=
    Lines.locate_column d.lines.last d.lines.closed o
  rw [← hline] at hcontent hstart hcolumn
  obtain ⟨more, hchars, hlength⟩ := exists_content hcontent
  have hle : d.lineStart line ≤ o := hlength ▸ hstart
  have hslice : Text.slice d.chars (d.lineStart line) (min o (d.lineEnd line) : Nat) =
      content.take (o - d.lineStart line) := by
    have hsplit : content.take (o - d.lineStart line) ++ (content.drop (o - d.lineStart line) ++
        more) = content ++ more := by rw [← List.append_assoc, List.take_append_drop]
    rw [hchars, ← hsplit, Text.slice_append hlength]
    rw [lineEnd_eq hcontent, List.length_take, ← hlength]
    omega
  rw [hslice, positionAt]
  show (⟨_, _⟩ : Position) = _
  rw [hlength, ← Lines.startOf, ← hcolumn, hline]

/-- The offset that one reads off the table. -/
theorem offsetAt_eq_table (d : Snapshot) (p : Position) :
    d.offsetAt p =
      if p.line < 0 then 0
      else if d.lineStarts.length ≤ p.line then d.chars.length
      else d.lineStart p.line.toNat + Lines.before (d.lineContent p.line.toNat) p.character := by
  obtain ⟨line, character⟩ := p
  rw [length_lineStarts]
  by_cases hneg : line < 0
  · rw [if_pos hneg, offsetAt_of_neg hneg]
  rw [if_neg hneg]
  by_cases hlast : d.lineCount ≤ line
  · rw [if_pos hlast, offsetAt_of_lineCount_le hlast]
  rw [if_neg hlast]
  obtain ⟨n, rfl⟩ := Int.eq_ofNat_of_zero_le (Int.not_lt.1 hneg)
  have hn : n < d.lineCount := Int.ofNat_lt.1 (Int.not_le.1 hlast)
  obtain ⟨content, hcontent⟩ := lt_lineCount_iff.1 hn
  rw [offsetAt_line, Int.toNat_natCast, lineContent_eq hcontent, lineStart_eq hn]
  exact Lines.offset_eq _ _ _ hcontent

/-- The line table cuts a text into the contents of its lines and the breaks between them. -/
structure Partitioned (d : Snapshot) : Prop where
  /-- The first line starts at the beginning, and every other one later than the one before. -/
  starts : d.lineStarts[0]? = some 0 ∧ d.lineStarts.Pairwise (· < ·) ∧
    ∀ start ∈ d.lineStarts, start ≤ d.chars.length
  /-- The content of a line holds no part of a break. -/
  content : ∀ i < d.lineCount, d.lineStart i ≤ d.lineEnd i ∧ d.lineEnd i ≤ d.chars.length ∧
    Unbroken (d.lineContent i)
  /-- From the end of a line's content to the next start goes one break. -/
  closed : ∀ i, i + 1 < d.lineCount → ∃ e : Ending, d.lineBreak i = e.chars
  /-- The last line ends with the text. -/
  last : d.lineEnd (d.lineCount - 1) = d.chars.length
  /-- A carriage return and the line feed behind it are never in two breaks. -/
  whole : ∀ o, d.chars[o]? = some '\r' → d.chars[o + 1]? = some '\n' →
    ∃ i, i + 1 < d.lineCount ∧ d.lineEnd i = o ∧ d.lineStart (i + 1) = o + 2
  /-- Contents and breaks in turn are the text. -/
  text : ((List.range d.lineCount).flatMap fun i => d.lineContent i ++ d.lineBreak i) = d.chars
  /-- There is one line more than breaks. -/
  count : d.lineStarts.length = d.lineCount ∧
    d.lineCount = (List.range d.lineCount).countP (fun i => d.lineBreak i ≠ []) + 1
  /-- The breaks are the carriage returns and the line feeds, of which two that stand together
  count once. -/
  breaks : d.lineCount + (List.range d.chars.length).countP (splitsBreak d.chars) =
    d.chars.count '\r' + d.chars.count '\n' + 1
  /-- Positions and offsets are those that one reads off the table. -/
  positions : ∀ offset, d.positionAt offset =
    ⟨d.lineOf (d.clamp offset), Text.utf16Length (Text.slice d.chars
      (d.lineStart (d.lineOf (d.clamp offset)))
      (min (d.clamp offset) (d.lineEnd (d.lineOf (d.clamp offset))) : Nat))⟩
  offsets : ∀ p : Position, d.offsetAt p =
    if p.line < 0 then 0
    else if d.lineStarts.length ≤ p.line then d.chars.length
    else d.lineStart p.line.toNat + Lines.before (d.lineContent p.line.toNat) p.character

theorem exists_closed (h : i + 1 < d.lineCount) : ∃ l, d.lines.closed[i]? = some l :=
  ⟨_, List.getElem?_eq_getElem (Nat.lt_of_succ_lt_succ h)⟩

theorem whole_break {o : Nat} (hr : d.chars[o]? = some '\r') (hn : d.chars[o + 1]? = some '\n') :
    ∃ i, i + 1 < d.lineCount ∧ d.lineEnd i = o ∧ d.lineStart (i + 1) = o + 2 := by
  have hs : splitsBreak (Lines.chars ⟨d.lines.closed, d.lines.last⟩) (o + 1) = true := by
    rw [chars_lines]
    exact splitsBreak_iff.2 ⟨Nat.succ_pos o, hr, hn⟩
  obtain ⟨i, l, hl, hboth, ho⟩ := d.wellCut_lines.exists_both hs
  obtain ⟨hend, hnext⟩ := lineEnd_of_closed hl
  have hi : i < d.lines.closed.length := (List.getElem?_eq_some_iff.1 hl).1
  have hlength : l.length = l.content.length + 2 := by
    rw [Line.length, hboth]
    rfl
  rw [← lineStart_eq (Nat.lt_succ_of_lt hi)] at ho
  exact ⟨i, Nat.succ_lt_succ hi, by omega, by omega⟩

theorem lineCount_eq_countP (d : Snapshot) :
    d.lineCount = (List.range d.lineCount).countP (fun i => d.lineBreak i ≠ []) + 1 := by
  have hall : (List.range d.lines.closed.length).countP (fun i => d.lineBreak i ≠ []) =
      d.lines.closed.length := by
    rw [List.countP_eq_length.2 fun i hi => ?_, List.length_range]
    obtain ⟨l, hl⟩ := exists_closed (Nat.succ_lt_succ (List.mem_range.1 hi))
    rw [lineBreak_eq hl, decide_eq_true_eq]
    exact List.length_pos_iff.1 l.ending.length_chars_pos
  conv => rhs; rw [lineCount, Lines.count, List.range_succ, List.countP_append, hall]
  rw [List.countP_singleton, lineBreak_last]
  rfl

theorem lines_partition (d : Snapshot) : d.Partitioned where
  starts := by
    rw [lineStarts_eq]
    refine ⟨Lines.getElem?_startsFrom _ 0 (Nat.zero_le _), Lines.startsFrom_increasing _ _,
      fun start h => ?_⟩
    have hle := Lines.mem_startsFrom_le d.lines.last _ h
    rwa [chars_lines, Nat.zero_add] at hle
  content i hi := by
    obtain ⟨content, hcontent⟩ := lt_lineCount_iff.1 hi
    obtain ⟨more, hchars, hstart⟩ := exists_content hcontent
    have hlength := congrArg List.length hchars
    rw [List.length_append, List.length_append, ← hstart] at hlength
    rw [lineEnd_eq hcontent, lineContent_eq hcontent]
    exact ⟨by omega, by omega, Lines.unbroken_of_mem_contents (List.mem_of_getElem? hcontent)⟩
  closed i hi := by
    obtain ⟨l, hl⟩ := exists_closed hi
    exact ⟨l.ending, lineBreak_eq hl⟩
  last := d.lineEnd_last
  whole _ hr hn := whole_break hr hn
  text := d.flatMap_lines
  count := ⟨d.length_lineStarts, d.lineCount_eq_countP⟩
  breaks := Lines.count_ofChars d.chars
  positions := d.positionAt_eq_table
  offsets := d.offsetAt_eq_table

example : (⟨"", "\r\r\n\n", plainText, none⟩ : Snapshot).lineStarts = [0, 1, 3, 4] := by decide

end Snapshot

end FormatServer
