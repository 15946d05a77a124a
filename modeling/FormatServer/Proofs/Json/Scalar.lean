import FormatServer.Json.Canonical
import FormatServer.Json.Reader
import Mathlib.Algebra.Group.Nat.Defs
import Mathlib.Data.List.Basic
import Mathlib.Data.List.TakeDrop
import Mathlib.Tactic.SplitIfs

/-!
# Texts and integers read back

A text between its quotes is read as that text (`text?_text`): every character is read from its
escape (`textFrom_escape`), also one beyond the basic plane, which is written as two escapes. The
digits of an integer are read as that integer (`number?_toDigits`) if what follows them cannot go on
a number (`Ends`). What is written is ASCII without control characters (`printable_text`,
`printable_integer`).
-/

set_option autoImplicit false

namespace FormatServer

/-! ## Hexadecimal digits -/

namespace Text

theorem hexValue?_hexDigit : ∀ n < 16, hexValue? (hexDigit n) = some n := by
  decide +kernel

/-- Digits stand for what is left of the number in their width. -/
theorem hexRead?_hex (width : Nat) : ∀ n : Nat, hexRead? (hex width n) = some (n % 16 ^ width) := by
  induction width with
  | zero =>
    intro n
    rw [Nat.pow_zero, Nat.mod_one]
    rfl
  | succ width ih =>
    intro n
    have hlast : hexValue? (hexDigit (n % 16)) = some (n % 16) :=
      hexValue?_hexDigit _ (Nat.mod_lt n (by decide))
    have hinit := ih (n / 16)
    unfold hexRead? at hinit ⊢
    rw [hex, List.foldl_append, hinit]
    simp only [List.foldl_cons, List.foldl_nil, Option.bind_some, hlast, Option.map_some]
    rw [Nat.pow_succ, Nat.mul_comm (16 ^ width) 16, Nat.mod_mul]
    congr 1
    omega

end Text

namespace Json

open Reader Canonical

/-! ## Texts -/

/-- A backslash and four digits, written of a unit, are read as that unit. -/
theorem hexUnit_hex (u : UInt16) : ∃ a b c d : Char,
    escapeUnit u = ['\\', 'u', a, b, c, d] ∧ textFrom.hexUnit a b c d = some u.toNat := by
  refine ⟨_, _, _, _, rfl, ?_⟩
  have hu : u.toNat % 16 ^ 4 = u.toNat := Nat.mod_eq_of_lt u.toNat_lt
  exact (Text.hexRead?_hex 4 u.toNat).trans (congrArg some hu)

/-- A unit that is no surrogate is a character. -/
theorem textFrom_unit {u : UInt16} (hhigh : isHighSurrogate u.toNat = false)
    (hlow : isLowSurrogate u.toNat = false) (cs : List Char) :
    textFrom none (escapeUnit u ++ cs) = push (Char.ofNat u.toNat) (textFrom none cs) := by
  obtain ⟨a, b, c, d, hunit, hread⟩ := hexUnit_hex u
  rw [hunit]
  simp [textFrom, hread, hhigh, hlow, unitChar]

/-- A high surrogate and a low one are a character. -/
theorem textFrom_pair {high low : UInt16} (hhigh : isHighSurrogate high.toNat = true)
    (hlow : isLowSurrogate low.toNat = true) (cs : List Char) :
    textFrom none (escapeUnit high ++ (escapeUnit low ++ cs)) =
      push (pairChar high.toNat low.toNat) (textFrom none cs) := by
  obtain ⟨a, b, c, d, hunit, hread⟩ := hexUnit_hex high
  obtain ⟨a', b', c', d', hunit', hread'⟩ := hexUnit_hex low
  rw [hunit, hunit']
  simp [textFrom, hread, hread', hhigh, hlow]

/-- The range of characters, which leaves the surrogates out. -/
theorem toNat_char (c : Char) : c.toNat < 0xD800 ∨ 0xDFFF < c.toNat ∧ c.toNat < 0x110000 :=
  c.valid

/-- A character is read from its code units. -/
theorem textFrom_units (c : Char) (cs : List Char) :
    textFrom none ((Text.utf16Units c).flatMap escapeUnit ++ cs) = push c (textFrom none cs) := by
  have hvalid := toNat_char c
  unfold Text.utf16Units
  split
  · have hu : (UInt16.ofNat c.toNat).toNat = c.toNat := UInt16.toNat_ofNat_of_lt' (by
      show c.toNat < 0x10000
      omega)
    rw [List.flatMap_singleton, textFrom_unit, hu, Char.ofNat_toNat]
    · rw [hu, isHighSurrogate, Bool.and_eq_false_iff, decide_eq_false_iff_not,
        decide_eq_false_iff_not]
      omega
    · rw [hu, isLowSurrogate, Bool.and_eq_false_iff, decide_eq_false_iff_not,
        decide_eq_false_iff_not]
      omega
  · have hhigh : (UInt16.ofNat (0xD800 + (c.toNat - 0x10000) / 0x400)).toNat =
        0xD800 + (c.toNat - 0x10000) / 0x400 := UInt16.toNat_ofNat_of_lt' (by
      show _ < 0x10000
      omega)
    have hlow : (UInt16.ofNat (0xDC00 + (c.toNat - 0x10000) % 0x400)).toNat =
        0xDC00 + (c.toNat - 0x10000) % 0x400 := UInt16.toNat_ofNat_of_lt' (by
      show _ < 0x10000
      omega)
    have hpair : pairChar (0xD800 + (c.toNat - 0x10000) / 0x400)
        (0xDC00 + (c.toNat - 0x10000) % 0x400) = c := by
      have hsum : 0x10000 + (0xD800 + (c.toNat - 0x10000) / 0x400 - 0xD800) * 0x400 +
          (0xDC00 + (c.toNat - 0x10000) % 0x400 - 0xDC00) = c.toNat := by omega
      rw [pairChar, hsum, Char.ofNat_toNat]
    simp only [List.flatMap_cons, List.flatMap_nil, List.append_nil, List.append_assoc]
    rw [textFrom_pair, hhigh, hlow, hpair]
    · rw [hhigh, isHighSurrogate, Bool.and_eq_true, decide_eq_true_iff, decide_eq_true_iff]
      omega
    · rw [hlow, isLowSurrogate, Bool.and_eq_true, decide_eq_true_iff, decide_eq_true_iff]
      omega

/-- A character that has no escape stands for itself. -/
theorem textFrom_plain {c : Char} (hquote : c ≠ '"') (hbackslash : c ≠ '\\') (h : 0x20 ≤ c.toNat)
    (cs : List Char) : textFrom none (c :: cs) = push c (textFrom none cs) := by
  rw [textFrom]
  · simp [hbackslash, Nat.not_lt.2 h, textFrom.lone]
  all_goals simp_all

theorem textFrom_short {e c : Char} (he : e ≠ 'u') (h : shortEscape? e = some c) (cs : List Char) :
    textFrom none ('\\' :: e :: cs) = push c (textFrom none cs) := by
  rw [textFrom]
  · simp [h, textFrom.lone]
  all_goals simp_all

/-- A character is read from its escape. -/
theorem textFrom_escape (c : Char) (cs : List Char) :
    textFrom none (escape c ++ cs) = push c (textFrom none cs) := by
  unfold escape
  split_ifs with hself hn hr ht hf hb hplain
  · obtain rfl | rfl := hself
    · exact textFrom_short (by decide) rfl cs
    · exact textFrom_short (by decide) rfl cs
  · exact hn ▸ textFrom_short (by decide) rfl cs
  · exact hr ▸ textFrom_short (by decide) rfl cs
  · exact ht ▸ textFrom_short (by decide) rfl cs
  · exact hf ▸ textFrom_short (by decide) rfl cs
  · exact hb ▸ textFrom_short (by decide) rfl cs
  · exact textFrom_plain (fun e => hself (.inl e)) (fun e => hself (.inr e)) hplain.1 cs
  · exact textFrom_units c cs

theorem textFrom_escapes (rest : List Char) : ∀ cs : List Char,
    textFrom none (cs.flatMap escape ++ '"' :: rest) = some (cs, rest)
  | [] => rfl
  | c :: cs => by
    rw [List.flatMap_cons, List.append_assoc, textFrom_escape, textFrom_escapes rest cs]
    rfl

/-- A text between its quotes is read as that text. -/
theorem text?_text (s : String) (rest : List Char) :
    ∃ cs, Canonical.text s ++ rest = '"' :: cs ∧ text? cs = some (s, rest) := by
  refine ⟨s.toList.flatMap escape ++ '"' :: rest, by simp [Canonical.text], ?_⟩
  rw [text?, textFrom_escapes, Option.map_some, String.ofList_toList]

/-! ## Integers -/

/-- What may follow a value: nothing, a comma or a line break. -/
def Ends (rest : List Char) : Prop := ∀ c ∈ rest.head?, c = ',' ∨ c = '\n'

theorem ends_nil : Ends [] := nofun

theorem ends_comma (rest : List Char) : Ends (',' :: rest) :=
  fun _ h => .inl (Option.some.inj h).symm

theorem ends_newline (level : Nat) (rest : List Char) : Ends (newline level ++ rest) :=
  fun _ h => .inr (Option.some.inj h).symm

/-- Digits end where a value may end. -/
theorem digits_append {ds rest : List Char} (hds : ∀ d ∈ ds, d.isDigit = true) (h : Ends rest) :
    digits (ds ++ rest) = (ds, rest) := by
  have hrest : rest.takeWhile Char.isDigit = [] ∧ rest.dropWhile Char.isDigit = rest := by
    cases rest with
    | nil => exact ⟨rfl, rfl⟩
    | cons c rest =>
      obtain rfl | rfl := h c rfl
      · exact ⟨rfl, rfl⟩
      · exact ⟨rfl, rfl⟩
  rw [digits, List.span_eq_takeWhile_dropWhile, List.takeWhile_append_of_pos hds,
    List.dropWhile_append_of_pos hds, hrest.1, hrest.2, List.append_nil]

theorem isDigit_of_mem_toDigits {n : Nat} {d : Char} (h : d ∈ Nat.toDigits 10 n) :
    d.isDigit = true :=
  Nat.isDigit_of_mem_toDigits (by decide) (by decide) h

/-- The digits of a number that is not zero do not begin with a zero. -/
theorem toDigits_head : ∀ n : Nat, n ≠ 0 → (Nat.toDigits 10 n).head? ≠ some '0' := by
  intro n
  induction n using Nat.strongRecOn with
  | ind n ih =>
    intro hn
    by_cases hlt : n < 10
    · rw [Nat.toDigits_of_lt_base hlt]
      revert hn
      exact (by decide : ∀ n < 10, n ≠ 0 → [n.digitChar].head? ≠ some '0') n hlt
    · rw [Nat.toDigits_of_base_le (by decide) (Nat.not_lt.1 hlt),
        List.head?_append_of_ne_nil _ Nat.toDigits_ne_nil]
      exact ih (n / 10) (by omega) (by omega)

theorem whole_toDigits (n : Nat) {rest : List Char} (h : Ends rest) :
    whole (Nat.toDigits 10 n ++ rest) = (Nat.toDigits 10 n, rest) := by
  by_cases hn : n = 0
  · subst hn
    rfl
  · have hhead := toDigits_head n hn
    rw [whole.eq_def]
    split
    · next heq =>
      cases hds : Nat.toDigits 10 n with
      | nil => exact absurd hds Nat.toDigits_ne_nil
      | cons d ds =>
        rw [hds] at heq hhead
        exact absurd (congrArg some (List.cons.inj heq).1) hhead
    · exact digits_append (fun d hd => isDigit_of_mem_toDigits hd) h

theorem digitsValue_toDigits (n : Nat) : digitsValue (Nat.toDigits 10 n) = n := by
  have hstep : (fun (m : Nat) (d : Char) => m * 10 + (d.toNat - 0x30)) =
      fun m d => 10 * m + (d.toNat - '0'.toNat) := by
    funext m d
    rw [Nat.mul_comm]
    rfl
  rw [digitsValue, hstep]
  exact Nat.ofDigitChars_toDigits (by decide) (by decide)

theorem fraction_of_ends {rest : List Char} (h : Ends rest) : fraction rest = ([], rest) := by
  cases rest with
  | nil => rfl
  | cons c rest =>
    obtain rfl | rfl := h c rfl
    · rfl
    · rfl

theorem exponent_of_ends {rest : List Char} (h : Ends rest) : exponent rest = (none, rest) := by
  cases rest with
  | nil => rfl
  | cons c rest =>
    obtain rfl | rfl := h c rfl
    · rfl
    · rfl

/-- The digits of an integer are read as that integer. -/
theorem number?_toDigits {maxDigits n : Nat} (negative : Bool) {rest : List Char}
    (hdigits : (Nat.toDigits 10 n).length ≤ maxDigits) (h : Ends rest) :
    number? maxDigits negative (Nat.toDigits 10 n ++ rest) =
      some (.int (if negative then -(n : Int) else n), rest) := by
  unfold number?
  simp only [whole_toDigits n h, fraction_of_ends h, exponent_of_ends h, digitsValue_toDigits]
  simp [Nat.toDigits_ne_nil, hdigits]

/-! ## Printable characters -/

/-- A line break, or ASCII without control characters. -/
def Printable (c : Char) : Prop := c = '\n' ∨ 0x20 ≤ c.toNat ∧ c.toNat ≤ 0x7E

instance (c : Char) : Decidable (Printable c) := by
  unfold Printable
  infer_instance

theorem printable_of_all {cs : List Char} (h : cs.all (fun c => decide (Printable c)) = true) :
    ∀ c ∈ cs, Printable c :=
  fun c hc => of_decide_eq_true (List.all_eq_true.1 h c hc)

theorem printable_hexDigit : ∀ n < 16, Printable (Text.hexDigit n) := by
  decide +kernel

theorem printable_hex (width : Nat) : ∀ n : Nat, ∀ c ∈ Text.hex width n, Printable c := by
  induction width with
  | zero => exact fun _ _ h => absurd h List.not_mem_nil
  | succ width ih =>
    intro n c hc
    rw [Text.hex, List.mem_append, List.mem_singleton] at hc
    obtain hc | rfl := hc
    · exact ih (n / 16) c hc
    · exact printable_hexDigit _ (Nat.mod_lt n (by decide))

theorem printable_escapeUnit (u : UInt16) : ∀ c ∈ escapeUnit u, Printable c :=
  List.forall_mem_cons.2 ⟨by decide, List.forall_mem_cons.2 ⟨by decide, printable_hex 4 _⟩⟩

theorem printable_escape (c : Char) : ∀ d ∈ escape c, Printable d := by
  unfold escape
  split_ifs with hself hn hr ht hf hb hplain
  · obtain rfl | rfl := hself
    · exact printable_of_all (by decide)
    · exact printable_of_all (by decide)
  · exact printable_of_all (by decide)
  · exact printable_of_all (by decide)
  · exact printable_of_all (by decide)
  · exact printable_of_all (by decide)
  · exact printable_of_all (by decide)
  · exact List.forall_mem_singleton.2 (.inr ⟨hplain.1, Nat.le_of_lt_succ hplain.2⟩)
  · intro d hd
    obtain ⟨u, -, hd⟩ := List.mem_flatMap.1 hd
    exact printable_escapeUnit u d hd

theorem printable_text (s : String) : ∀ c ∈ Canonical.text s, Printable c := by
  intro c hc
  rw [Canonical.text, List.cons_append, List.mem_cons, List.mem_append, List.mem_singleton] at hc
  obtain rfl | hc | rfl := hc
  · decide
  · obtain ⟨d, -, hc⟩ := List.mem_flatMap.1 hc
    exact printable_escape d c hc
  · decide

theorem printable_digit {d : Char} (h : d.isDigit = true) : Printable d := by
  have h : 0x30 ≤ d.toNat ∧ d.toNat ≤ 0x39 := Char.isDigit_iff_toNat.1 h
  exact .inr (by omega)

theorem printable_integer (n : Int) : ∀ c ∈ integer n, Printable c := by
  have hdigits : ∀ c ∈ Nat.toDigits 10 n.natAbs, Printable c :=
    fun c hc => printable_digit (isDigit_of_mem_toDigits hc)
  unfold integer
  split
  · exact List.forall_mem_cons.2 ⟨by decide, hdigits⟩
  · exact hdigits

end Json

end FormatServer
