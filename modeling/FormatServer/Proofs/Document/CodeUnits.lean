import FormatServer.Proofs.Document.Order
import FormatServer.Proofs.Edit.Answer
import FormatServer.Proofs.Session.Tasks

/-!
# Positions as indices into UTF-16

A client that keeps its text in UTF-16 finds a position without looking at characters
(`Utf16.index`): it cuts the code units into lines, goes on from the start of the line by as many
units as the character says, but not out of the content, and steps behind a surrogate pair that it
would split. The offset of a position in code units is that index (`Snapshot.utf16OffsetAt_eq_index`).

A request to format a range asks for the indices of its ends. They stay in order and in the text and
split neither a surrogate pair nor a line break (`Session.range_requested`).
-/

set_option autoImplicit false

namespace FormatServer

namespace Utf16

/-! ## Code units -/

def carriageReturn : UInt16 := 0x0D

def lineFeed : UInt16 := 0x0A

/-- The first half of a surrogate pair. -/
def isHigh (u : UInt16) : Bool := 0xD800 ≤ u.toNat && u.toNat < 0xDC00

/-- The second half of a surrogate pair. -/
def isLow (u : UInt16) : Bool := 0xDC00 ≤ u.toNat && u.toNat < 0xE000

/-- The index lies between a unit of the one kind and a unit of the other. -/
def splits (first second : UInt16 → Bool) (us : List UInt16) (i : Nat) : Bool :=
  0 < i && us[i - 1]?.any first && us[i]?.any second

/-- The index lies between the halves of a surrogate pair. -/
def splitsPair : List UInt16 → Nat → Bool := splits isHigh isLow

/-- The index lies between a carriage return and its line feed. -/
def splitsBreak : List UInt16 → Nat → Bool := splits (· = carriageReturn) (· = lineFeed)

/-- Where a line starts, and how long its content is. -/
structure LineSpan where
  start : Nat
  length : Nat
  deriving DecidableEq, Repr

/-- The lines of a text, of whose first line `length` units from `start` on have been seen. -/
def linesFrom (start length : Nat) : List UInt16 → List LineSpan
  | [] => [⟨start, length⟩]
  | 0x0D :: 0x0A :: us => ⟨start, length⟩ :: linesFrom (start + length + 2) 0 us
  | 0x0D :: us => ⟨start, length⟩ :: linesFrom (start + length + 1) 0 us
  | 0x0A :: us => ⟨start, length⟩ :: linesFrom (start + length + 1) 0 us
  | _ :: us => linesFrom start (length + 1) us

/-- The lines of a text. -/
def lines (us : List UInt16) : List LineSpan := linesFrom 0 0 us

/-- The index of a position. -/
def index (us : List UInt16) (p : Position) : Nat :=
  if p.line < 0 then 0
  else
    match (lines us)[p.line.toNat]? with
    | none => us.length
    | some l =>
      let i := l.start + (max 0 (min p.character l.length)).toNat
      if splitsPair us i then i + 1 else i

end Utf16

namespace Text

/-! ## The units of a character -/

/-- A character is one unit of its own value, or a surrogate pair. -/
theorem utf16Units_cases (c : Char) :
    (units c = 1 ∧ ∃ u, utf16Units c = [u] ∧ u.toNat = c.toNat ∧ Utf16.isLow u = false) ∨
      units c = 2 ∧ ∃ high low, utf16Units c = [high, low] ∧ Utf16.isHigh high = true ∧
        Utf16.isLow low = true := by
  have hvalid : c.toNat < 0xD800 ∨ 0xDFFF < c.toNat ∧ c.toNat < 0x110000 := c.valid
  unfold units utf16Units
  by_cases h : c.toNat ≤ 0xFFFF
  · have hu : (UInt16.ofNat c.toNat).toNat = c.toNat := by
      rw [UInt16.toNat_ofNat', Nat.mod_eq_of_lt (by omega)]
    refine .inl ⟨if_pos h, _, if_pos h, hu, ?_⟩
    rw [Utf16.isLow, hu]
    simp only [Bool.and_eq_false_iff, decide_eq_false_iff_not]
    omega
  · refine .inr ⟨if_neg h, _, _, if_neg h, ?_, ?_⟩
    · rw [Utf16.isHigh, UInt16.toNat_ofNat', Nat.mod_eq_of_lt (by omega)]
      simp only [Bool.and_eq_true, decide_eq_true_eq]
      omega
    · rw [Utf16.isLow, UInt16.toNat_ofNat', Nat.mod_eq_of_lt (by omega)]
      simp only [Bool.and_eq_true, decide_eq_true_eq]
      omega

theorem utf16_cons (c : Char) (cs : List Char) : utf16 (c :: cs) = utf16Units c ++ utf16 cs := rfl

/-- No text begins in the middle of a surrogate pair. -/
theorem isLow_of_head? {cs : List Char} {u : UInt16} (h : (utf16 cs).head? = some u) :
    Utf16.isLow u = false := by
  cases cs with
  | nil => cases h
  | cons c cs =>
    rw [utf16_cons] at h
    rcases utf16Units_cases c with ⟨-, v, hv, -, hlow⟩ | ⟨-, high, low, hv, hhigh, -⟩
    · rw [hv] at h
      cases h
      exact hlow
    · rw [hv] at h
      cases h
      simp only [Utf16.isHigh, Utf16.isLow, Bool.and_eq_true, Bool.and_eq_false_iff,
        decide_eq_true_eq, decide_eq_false_iff_not] at hhigh ⊢
      omega

theorem head?_of_lineFeed {cs : List Char} (h : (utf16 cs).head? = some Utf16.lineFeed) :
    cs.head? = some '\n' := by
  cases cs with
  | nil => cases h
  | cons c cs =>
    rw [utf16_cons] at h
    rcases utf16Units_cases c with ⟨-, v, hv, hc, -⟩ | ⟨-, high, low, hv, hhigh, -⟩
    · rw [hv] at h
      cases h
      rw [List.head?_cons, Char.toNat_inj.1 (show c.toNat = '\n'.toNat from hc.symm)]
    · rw [hv] at h
      cases h
      cases hhigh

theorem getLast?_of_carriageReturn {cs : List Char}
    (h : (utf16 cs).getLast? = some Utf16.carriageReturn) : cs.getLast? = some '\r' := by
  rcases List.eq_nil_or_concat cs with rfl | ⟨cs, c, rfl⟩
  · cases h
  · rw [List.concat_eq_append, utf16_append,
      show utf16 [c] = utf16Units c from List.append_nil _] at h
    rw [List.concat_eq_append]
    rcases utf16Units_cases c with ⟨-, v, hv, hc, -⟩ | ⟨-, high, low, hv, -, hlow⟩
    · rw [hv, List.getLast?_concat] at h
      cases h
      rw [List.getLast?_concat, Char.toNat_inj.1 (show c.toNat = '\r'.toNat from hc.symm)]
    · rw [hv, show utf16 cs ++ [high, low] = utf16 cs ++ [high] ++ [low] by simp,
        List.getLast?_concat] at h
      cases h
      cases hlow

/-! ## What lies around an offset -/

theorem getElem?_utf16_length (cs : List Char) (k : Nat) :
    (utf16 cs)[utf16Length (cs.take k)]? = (utf16 (cs.drop k)).head? := by
  rw [← List.head?_drop, drop_utf16]

theorem getElem?_utf16_length_pred {cs : List Char} {k : Nat} (h : 0 < utf16Length (cs.take k)) :
    (utf16 cs)[utf16Length (cs.take k) - 1]? = (utf16 (cs.take k)).getLast? := by
  rw [List.getLast?_eq_getElem?, length_utf16, ← take_utf16, List.getElem?_take_of_lt (by omega)]

end Text

namespace Utf16

theorem splits_iff {first second : UInt16 → Bool} {us : List UInt16} {i : Nat} :
    splits first second us i = true ↔ 0 < i ∧ (∃ u, us[i - 1]? = some u ∧ first u = true) ∧
      ∃ u, us[i]? = some u ∧ second u = true := by
  simp only [splits, Bool.and_eq_true, decide_eq_true_eq, Option.any_eq_true, and_assoc]

/-- The offset of a character splits no surrogate pair. -/
theorem not_splitsPair (cs : List Char) (k : Nat) :
    ¬ splitsPair (Text.utf16 cs) (Text.utf16Length (cs.take k)) = true := by
  intro h
  obtain ⟨-, -, u, hu, hlow⟩ := splits_iff.1 h
  rw [Text.getElem?_utf16_length] at hu
  rw [Text.isLow_of_head? hu] at hlow
  cases hlow

/-- One unit into a character of two is inside a surrogate pair. -/
theorem splitsPair_inside {c : Char} (hc : Text.units c = 2) (left right : List Char) :
    splitsPair (Text.utf16 (left ++ c :: right)) (Text.utf16Length left + 1) = true := by
  rcases Text.utf16Units_cases c with ⟨hc', -⟩ | ⟨-, high, low, hu, hhigh, hlow⟩
  · omega
  · have hunits : Text.utf16 (left ++ c :: right) =
        Text.utf16 left ++ high :: low :: Text.utf16 right := by
      rw [Text.utf16_append, Text.utf16_cons, hu]
      rfl
    rw [splitsPair, splits_iff, hunits, ← Text.length_utf16, Nat.add_sub_cancel]
    exact ⟨Nat.succ_pos _, ⟨high, by simp, hhigh⟩, low, by simp, hlow⟩

/-- The offset of a character splits a line break in code units only if it does in characters. -/
theorem splitsBreak_of_utf16 {cs : List Char} {k : Nat} (hk : k ≤ cs.length)
    (h : splitsBreak (Text.utf16 cs) (Text.utf16Length (cs.take k)) = true) :
    FormatServer.splitsBreak cs k = true := by
  obtain ⟨hpos, ⟨r, hr, hr'⟩, n, hn, hn'⟩ := splits_iff.1 h
  obtain rfl : r = carriageReturn := of_decide_eq_true hr'
  obtain rfl : n = lineFeed := of_decide_eq_true hn'
  rw [Text.getElem?_utf16_length_pred hpos] at hr
  rw [Text.getElem?_utf16_length] at hn
  have hr := Text.getLast?_of_carriageReturn hr
  have hn := Text.head?_of_lineFeed hn
  have hk0 : 0 < k := Nat.pos_of_ne_zero fun h0 => by
    subst h0
    exact absurd hpos (Nat.lt_irrefl 0)
  rw [List.getLast?_eq_getElem?, List.length_take_of_le hk, List.getElem?_take_of_lt (by omega)] at hr
  rw [List.head?_drop] at hn
  exact splitsBreak_iff.2 ⟨hk0, hr, hn⟩

/-! ## Lines -/

/-- The lines in code units, of whose first one `length` units from `start` on have been seen. -/
def spansFrom (start length : Nat) : List Line → List Char → List LineSpan
  | [], last => [⟨start, length + Text.utf16Length last⟩]
  | l :: ls, last => ⟨start, length + Text.utf16Length l.content⟩ ::
      spansFrom (start + length + Text.utf16Length l.chars) 0 ls last

theorem spansFrom_push (start length : Nat) (c : Char) (ls : Lines) :
    spansFrom start length (ls.push c).closed (ls.push c).last =
      spansFrom start (length + Text.units c) ls.closed ls.last := by
  obtain ⟨closed, last⟩ := ls
  cases closed with
  | nil => simp [Lines.push, spansFrom, Text.utf16Length, Nat.add_assoc]
  | cons l closed => simp [Lines.push, spansFrom, Line.chars, Text.utf16Length, Nat.add_assoc]

theorem spansFrom_pushLine (start length : Nat) (e : Ending) (ls : Lines) :
    spansFrom start length (ls.pushLine e).closed (ls.pushLine e).last =
      ⟨start, length⟩ :: spansFrom (start + length + Text.utf16Length e.chars) 0 ls.closed ls.last :=
  rfl

theorem linesFrom_unit {u : UInt16} (hr : u ≠ carriageReturn) (hn : u ≠ lineFeed)
    (start length : Nat) (us : List UInt16) :
    linesFrom start length (u :: us) = linesFrom start (length + 1) us := by
  rw [linesFrom]
  · exact fun _ h => absurd h hr
  · exact hr
  · exact hn

theorem linesFrom_char {c : Char} (hr : c ≠ '\r') (hn : c ≠ '\n') (start length : Nat)
    (us : List UInt16) : linesFrom start length (Text.utf16Units c ++ us) =
      linesFrom start (length + Text.units c) us := by
  rcases Text.utf16Units_cases c with ⟨hc, u, hu, hvalue, -⟩ | ⟨hc, high, low, hu, hhigh, hlow⟩
  · have hne : ∀ b : Char, c ≠ b → u.toNat ≠ b.toNat := fun b hb h =>
      hb (Char.toNat_inj.1 (hvalue.symm.trans h))
    rw [hu, hc]
    exact linesFrom_unit (fun h => hne _ hr (congrArg UInt16.toNat h))
      (fun h => hne _ hn (congrArg UInt16.toNat h)) start length us
  · rw [hu, hc, List.cons_append, List.singleton_append,
      linesFrom_unit (by rintro rfl; cases hhigh) (by rintro rfl; cases hhigh),
      linesFrom_unit (by rintro rfl; cases hlow) (by rintro rfl; cases hlow)]

theorem linesFrom_carriageReturn {us : List UInt16} (h : us.head? ≠ some lineFeed)
    (start length : Nat) : linesFrom start length (carriageReturn :: us) =
      ⟨start, length⟩ :: linesFrom (start + length + 1) 0 us := by
  rw [carriageReturn, linesFrom]
  rintro us' rfl
  exact h rfl

/-- Cutting the code units cuts the characters. The induction is on the cut of the characters, for
any unfinished line before them. -/
theorem linesFrom_utf16 (cs : List Char) : ∀ start length : Nat,
    linesFrom start length (Text.utf16 cs) =
      spansFrom start length (Lines.ofChars cs).closed (Lines.ofChars cs).last := by
  fun_induction Lines.ofChars cs with
  | case1 => exact fun _ _ => rfl
  | case2 cs ih =>
    intro start length
    rw [spansFrom_pushLine, ← ih]
    rfl
  | case3 cs hcs ih =>
    intro start length
    rw [spansFrom_pushLine, ← ih]
    -- A line feed in the first unit would be the first character.
    refine linesFrom_carriageReturn (fun h => ?_) start length
    obtain ⟨cs', rfl⟩ := List.head?_eq_some_iff.1 (Text.head?_of_lineFeed h)
    exact hcs cs' rfl
  | case4 cs ih =>
    intro start length
    rw [spansFrom_pushLine, ← ih]
    rfl
  | case5 c cs _ hr hn ih =>
    intro start length
    rw [spansFrom_push, ← ih]
    exact linesFrom_char hr hn start length (Text.utf16 cs)

theorem length_spansFrom (last : List Char) : ∀ (ls : List Line) (start length : Nat),
    (spansFrom start length ls last).length = ls.length + 1
  | [], _, _ => rfl
  | _ :: ls, _, _ => congrArg Nat.succ (length_spansFrom last ls _ 0)

/-- A line starts behind the lines before it. -/
theorem getElem?_spansFrom (last : List Char) {content : List Char} :
    ∀ (ls : List Line) (start : Nat) {n : Nat},
      (ls.map Line.content ++ [last])[n]? = some content →
      (spansFrom start 0 ls last)[n]? =
        some ⟨start + Text.utf16Length ((ls.take n).flatMap Line.chars), Text.utf16Length content⟩
  | [], start, 0, h => by
    cases h
    simp [spansFrom, Text.utf16Length]
  | [], _, _ + 1, h => by cases h
  | l :: ls, start, 0, h => by
    cases h
    simp [spansFrom, Text.utf16Length]
  | l :: ls, start, n + 1, h => by
    rw [spansFrom, List.getElem?_cons_succ, getElem?_spansFrom last ls _ h, List.take_succ_cons,
      List.flatMap_cons, Text.utf16Length_append, Nat.add_zero, Nat.add_assoc]

end Utf16

/-- The text before a line, its content, and what comes after it. -/
theorem Lines.exists_chars (last : List Char) {content : List Char} :
    ∀ (ls : List Line) {n : Nat}, (ls.map Line.content ++ [last])[n]? = some content →
      ∃ more, chars ⟨ls, last⟩ = (ls.take n).flatMap Line.chars ++ (content ++ more)
  | [], 0, h => by
    cases h
    exact ⟨[], (List.append_nil _).symm⟩
  | [], _ + 1, h => by cases h
  | l :: ls, 0, h => by
    cases h
    exact ⟨l.ending.chars ++ chars ⟨ls, last⟩, by
      rw [chars_cons, Line.chars, List.append_assoc]
      rfl⟩
  | l :: ls, n + 1, h => by
    obtain ⟨more, hmore⟩ := exists_chars last ls h
    exact ⟨more, by rw [chars_cons, hmore, List.take_succ_cons, List.flatMap_cons,
      List.append_assoc]⟩

namespace Snapshot

variable {d : Snapshot}

theorem length_lines_utf16 (d : Snapshot) :
    (Utf16.lines (Text.utf16 d.chars)).length = d.lineCount := by
  rw [Utf16.lines, Utf16.linesFrom_utf16, Utf16.length_spansFrom]
  rfl

theorem line_utf16 {n : Nat} {content : List Char} (h : d.lines.contents[n]? = some content) :
    (Utf16.lines (Text.utf16 d.chars))[n]? =
      some ⟨Text.utf16Length ((d.lines.closed.take n).flatMap Line.chars),
        Text.utf16Length content⟩ := by
  rw [Utf16.lines, Utf16.linesFrom_utf16]
  have hspan := Utf16.getElem?_spansFrom d.lines.last d.lines.closed 0 h
  rwa [Nat.zero_add] at hspan

/-! ## The index of a position -/

theorem Normal.unitOffset {p q : Position} (h : d.Normal p q) :
    d.utf16OffsetAt p = d.unitOffset q := by
  rw [h.eq, unitOffset_positionAt (d.offsetAt_le p) (d.not_splitsBreak_offsetAt p)]
  rfl

theorem index_line {n : Nat} {content : List Char} (h : d.lines.contents[n]? = some content)
    (character : Int) : Utf16.index (Text.utf16 d.chars) ⟨n, character⟩ =
      let i := Text.utf16Length ((d.lines.closed.take n).flatMap Line.chars) +
        (max 0 (min character (Text.utf16Length content))).toNat
      if Utf16.splitsPair (Text.utf16 d.chars) i then i + 1 else i := by
  rw [Utf16.index, if_neg (Int.not_lt.2 (Int.natCast_nonneg n)), Int.toNat_natCast, line_utf16 h]

/-- A place in the line that is the offset of a character is the index of its position. -/
theorem utf16OffsetAt_eq_index_of_whole {n m : Nat} {character : Int} {content : List Char}
    (hline : d.lines.contents[n]? = some content)
    (hm : (max 0 (min character (Text.utf16Length content))).toNat = m)
    (h : d.utf16OffsetAt ⟨n, character⟩ = d.unitOffset ⟨n, m⟩) :
    d.utf16OffsetAt ⟨n, character⟩ = Utf16.index (Text.utf16 d.chars) ⟨n, character⟩ := by
  have hwhole : ¬ Utf16.splitsPair (Text.utf16 d.chars) (d.utf16OffsetAt ⟨n, character⟩) = true :=
    Utf16.not_splitsPair d.chars _
  rw [h] at hwhole
  rw [index_line hline, hm, h]
  exact (if_neg hwhole).symm

/-- Measuring the characters up to a position counts its code units. -/
theorem utf16OffsetAt_eq_index (d : Snapshot) (p : Position) :
    d.utf16OffsetAt p = Utf16.index (Text.utf16 d.chars) p := by
  have hnormal := d.normal_positionAt p
  have hoffset := hnormal.unitOffset
  generalize d.positionAt (d.offsetAt p) = q at hnormal hoffset
  cases hnormal with
  | above h =>
    rw [utf16OffsetAt, offsetAt_of_neg h, Utf16.index, if_pos h]
    rfl
  | below h =>
    have hline : (Utf16.lines (Text.utf16 d.chars))[p.line.toNat]? = none := by
      rw [List.getElem?_eq_none_iff, length_lines_utf16]
      omega
    rw [utf16OffsetAt, offsetAt_of_lineCount_le h, List.take_length, Utf16.index,
      if_neg (by omega), hline, Text.length_utf16]
  | valid h =>
    obtain ⟨line, character⟩ := p
    obtain ⟨hnonneg, -, content, hline, beginning, ⟨rest, rfl⟩, hcharacter⟩ := h
    obtain ⟨n, rfl⟩ := Int.eq_ofNat_of_zero_le hnonneg
    obtain rfl : character = Text.utf16Length beginning := hcharacter
    refine utf16OffsetAt_eq_index_of_whole hline ?_ hoffset
    rw [Text.utf16Length_append]
    omega
  | left line h => exact utf16OffsetAt_eq_index_of_whole (m := 0) line (by omega) hoffset
  | right line h => exact utf16OffsetAt_eq_index_of_whole line (by omega) hoffset
  | @inside n character beginning rest c line pair h =>
    -- Here alone the place in the line splits a pair, and the index is the next one.
    obtain ⟨more, hchars⟩ := Lines.exists_chars d.lines.last d.lines.closed line
    let start := Text.utf16Length ((d.lines.closed.take n).flatMap Line.chars)
    have hsplits : Utf16.splitsPair (Text.utf16 d.chars)
        (start + (Text.utf16Length beginning + 1)) = true := by
      have hinside := Utf16.splitsPair_inside pair
        ((d.lines.closed.take n).flatMap Line.chars ++ beginning) (rest ++ more)
      rw [Text.utf16Length_append, Nat.add_assoc] at hinside
      rwa [← chars_lines, hchars, show ∀ as bs : List Char, as ++ (beginning ++ c :: rest ++ bs) =
        as ++ beginning ++ c :: (rest ++ bs) by simp]
    have hm : (max 0 (min character (Text.utf16Length (beginning ++ c :: rest)))).toNat =
        Text.utf16Length beginning + 1 := by
      have hlength : Text.utf16Length (beginning ++ c :: rest) =
          Text.utf16Length beginning + (2 + Text.utf16Length rest) := by
        rw [Text.utf16Length_append, ← pair]
        rfl
      omega
    rw [index_line line, hm, hoffset]
    refine Eq.trans ?_ (if_pos hsplits).symm
    show start + (character + 1).toNat = _
    omega

example : (⟨"", "a\r\nb😀", plainText, none⟩ : Snapshot).utf16OffsetAt ⟨1, 2⟩ = 6 := by decide

/-! ## Ranges -/

theorem utf16OffsetAt_le (d : Snapshot) (p : Position) :
    d.utf16OffsetAt p ≤ (Text.utf16 d.chars).length := by
  rw [Text.length_utf16]
  exact Text.utf16Length_take_le d.chars _

/-- The index of a position splits neither a surrogate pair nor a line break. -/
theorem not_splits_utf16OffsetAt (d : Snapshot) (p : Position) :
    ¬ Utf16.splitsPair (Text.utf16 d.chars) (d.utf16OffsetAt p) = true ∧
      ¬ Utf16.splitsBreak (Text.utf16 d.chars) (d.utf16OffsetAt p) = true :=
  ⟨Utf16.not_splitsPair d.chars _,
    fun h => d.not_splitsBreak_offsetAt p (Utf16.splitsBreak_of_utf16 (d.offsetAt_le p) h)⟩

end Snapshot

namespace Session

/-- A request to format a range of an open document asks for the indices of the ends of the range, in
their order and in the text, and cuts nothing that belongs together. -/
theorem range_requested :
    (∀ (d : Snapshot) (p : Position),
      (Utf16.lines (Text.utf16 d.chars)).length = d.lineCount ∧
        d.utf16OffsetAt p = Utf16.index (Text.utf16 d.chars) p) ∧
    ∀ (s : Session) (uri : String) (d : Snapshot) (range : Range),
      s.documents.lookup uri = some d → range.start ≤ range.stop →
      ∃ a b : Nat, a ≤ b ∧ b ≤ (Text.utf16 d.chars).length ∧
        take (.formatRange uri range) s = request (.edits d
          { rangeStart := some a, rangeEnd := some b, force := false } none) s ∧
        ∀ i, i = a ∨ i = b → ¬ Utf16.splitsPair (Text.utf16 d.chars) i = true ∧
          ¬ Utf16.splitsBreak (Text.utf16 d.chars) i = true := by
  refine ⟨fun d p => ⟨d.length_lines_utf16, d.utf16OffsetAt_eq_index p⟩, ?_⟩
  intro s uri d range hopen hrange
  have hrequest : s.requestOf (.formatRange uri range) =
      some (.edits d (rangeRequest range d) none) := by
    show (s.documents.lookup uri).map _ = _
    rw [hopen]
    rfl
  refine ⟨d.utf16OffsetAt range.start, d.utf16OffsetAt range.stop, d.utf16OffsetAt_mono hrange,
    d.utf16OffsetAt_le range.stop, take_request hrequest, ?_⟩
  rintro i (rfl | rfl)
  · exact d.not_splits_utf16OffsetAt range.start
  · exact d.not_splits_utf16OffsetAt range.stop

theorem range_requested_around_pair :
    let d : Snapshot := ⟨"file:///a.md", "a\r\nb😀", "markdown", none⟩
    let s : Session := { documents := [("file:///a.md", d)] }
    let range : Range := ⟨⟨0, 2⟩, ⟨1, 2⟩⟩
    s.documents.lookup "file:///a.md" = some d ∧ range.start ≤ range.stop ∧
      ∃ a b : Nat, a ≤ b ∧ b ≤ (Text.utf16 d.chars).length ∧
        take (.formatRange "file:///a.md" range) s = request (.edits d
          { rangeStart := some a, rangeEnd := some b, force := false } none) s := by
  intro d s range
  have hopen : s.documents.lookup "file:///a.md" = some d := by
    simp [s]
  have hrange : range.start ≤ range.stop := .inl (by decide)
  obtain ⟨a, b, hab, hb, hrequest, -⟩ := range_requested.2 s _ d range hopen hrange
  exact ⟨hopen, hrange, a, b, hab, hb, hrequest⟩

end Session

end FormatServer
