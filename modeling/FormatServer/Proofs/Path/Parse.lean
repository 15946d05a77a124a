import Mathlib.Data.List.TakeWhile
import FormatServer.Proofs.Path.Base

/-!
# Reading a path

A text is read as names that stand for themselves (`ordinary_of_mem_parse`), and a path of such
names is read back from its text (`parse_toString`). The directory of an absolute path has the anchor
of the path and all its names but the last at most (`parse_directory`). In the chain of a path stand
the paths that contain it, the deeper ones first (`mem_chain`, `chain_sorted`).
-/

set_option autoImplicit false

namespace FormatServer.Path

/-- The name stands for itself as a component. -/
def Ordinary (name : String) : Prop := name ≠ "" ∧ name ≠ "." ∧ '/' ∉ name.toList

instance (name : String) : Decidable (Ordinary name) := inferInstanceAs (Decidable (_ ∧ _ ∧ _))

variable {p d : Path} {s name : String}

/-! ## Names -/

theorem namesOf_append (xs ys : List Char) :
    namesOf (xs ++ '/' :: ys) = namesOf xs ++ namesOf ys := by
  simp only [namesOf, Text.splitAtEach_append, List.map_append, List.filter_append]

theorem namesOf_replicate_append (k : Nat) (xs : List Char) :
    namesOf (List.replicate k '/' ++ xs) = namesOf xs := by
  induction k with
  | zero => rfl
  | succ k ih => exact (namesOf_append [] _).trans ih

theorem namesOf_of_not_mem {xs : List Char} (h : '/' ∉ xs) :
    namesOf xs = [String.ofList xs].filter fun n => n ≠ "" ∧ n ≠ "." := by
  simp only [namesOf, Text.splitAtEach_of_not_mem h, List.map_singleton]

theorem namesOf_ordinary (h : Ordinary name) : namesOf name.toList = [name] := by
  rw [namesOf_of_not_mem h.2.2, String.ofList_toList]
  simp [h.1, h.2.1]

theorem not_mem_of_mem_splitAtEach {xs part : List Char} (h : part ∈ Text.splitAtEach '/' xs) :
    '/' ∉ part := by
  induction xs generalizing part with
  | nil => simp_all [Text.splitAtEach]
  | cons x xs ih =>
    rw [Text.splitAtEach] at h
    split at h
    · rcases List.mem_cons.1 h with rfl | h
      · exact List.not_mem_nil
      · exact ih h
    · next hx =>
      cases hparts : Text.splitAtEach '/' xs with
      | nil => exact absurd hparts (Text.splitAtEach_ne_nil '/' xs)
      | cons first rest =>
        rw [hparts] at h
        rcases List.mem_cons.1 h with rfl | h
        · exact List.not_mem_cons_of_ne_of_not_mem (Ne.symm hx) (ih (hparts ▸ List.mem_cons_self))
        · exact ih (hparts ▸ List.mem_cons_of_mem _ h)

theorem ordinary_of_mem_parse (h : name ∈ (parse s).names) : Ordinary name := by
  simp only [parse, namesOf, List.mem_filter, List.mem_map, decide_eq_true_eq] at h
  obtain ⟨⟨part, hpart, rfl⟩, hne, hdot⟩ := h
  exact ⟨hne, hdot, by simpa using not_mem_of_mem_splitAtEach hpart⟩

theorem head?_of_ordinary (h : Ordinary name) : ∃ c cs, name.toList = c :: cs ∧ c ≠ '/' := by
  cases hname : name.toList with
  | nil => exact absurd (String.toList_eq_nil_iff.1 hname) h.1
  | cons c cs => exact ⟨c, cs, rfl, fun hc => h.2.2 (by simp [hname, hc])⟩

theorem parse_of_ordinary (h : Ordinary name) : parse name = ⟨.relative, [name]⟩ := by
  obtain ⟨c, cs, hname, hc⟩ := head?_of_ordinary h
  have hslashes : name.toList.takeWhile (· = '/') = [] := by simp [hname, hc]
  rw [parse, namesOf_ordinary h, hslashes]
  rfl

/-! ## Texts -/

/-- The names joined by slashes begin with none, and are read as the names. -/
theorem namesOf_body {names : List String} (h : ∀ n ∈ names, Ordinary n) :
    namesOf ("/".intercalate names).toList = names ∧
      ("/".intercalate names).toList.takeWhile (· = '/') = [] := by
  induction names with
  | nil => exact ⟨by decide, by decide⟩
  | cons n names ih =>
    obtain ⟨hn, hnames⟩ := List.forall_mem_cons.1 h
    obtain ⟨c, cs, hc, hslash⟩ := head?_of_ordinary hn
    cases names with
    | nil =>
      rw [String.intercalate_singleton]
      exact ⟨namesOf_ordinary hn, by simp [hc, hslash]⟩
    | cons n' names =>
      have hbody : ("/".intercalate (n :: n' :: names)).toList =
          n.toList ++ '/' :: ("/".intercalate (n' :: names)).toList := by
        rw [String.intercalate_cons_cons]
        simp
      rw [hbody, namesOf_append, namesOf_ordinary hn, (ih hnames).1]
      exact ⟨rfl, by simp [hc, hslash]⟩

theorem parse_slashes_append {names : List String} (h : ∀ n ∈ names, Ordinary n) {k : Nat}
    (slashes : String) (hslashes : slashes.toList = List.replicate k '/') :
    parse (slashes ++ "/".intercalate names) = ⟨anchorOf k, names⟩ := by
  obtain ⟨hbody, hnone⟩ := namesOf_body h
  rw [parse, String.toList_append, hslashes, namesOf_replicate_append, hbody,
    List.takeWhile_append_of_pos (by simp), hnone, List.append_nil, List.length_replicate]

theorem parse_toString (h : ∀ n ∈ p.names, Ordinary n) : parse p.toString = p := by
  obtain ⟨a, names⟩ := p
  unfold Path.toString
  cases a with
  | relative =>
    cases names with
    | nil => decide
    | cons n names => simpa [anchorOf] using parse_slashes_append h (k := 0) "" rfl
  | root => exact parse_slashes_append h (k := 1) "/" rfl
  | doubleRoot => exact parse_slashes_append h (k := 2) "//" rfl

/-! ## Directories -/

theorem namesOf_append_replicate (xs : List Char) (k : Nat) :
    namesOf (xs ++ List.replicate k '/') = namesOf xs := by
  cases k with
  | zero => rw [List.replicate_zero, List.append_nil]
  | succ k =>
    have hnone : namesOf (List.replicate k '/') = [] := by
      simpa [namesOf, Text.splitAtEach] using namesOf_replicate_append k []
    rw [List.replicate_succ, namesOf_append, hnone, List.append_nil]

theorem length_namesOf_of_not_mem {xs : List Char} (h : '/' ∉ xs) : (namesOf xs).length ≤ 1 := by
  rw [namesOf_of_not_mem h]
  exact List.length_filter_le _ _

theorem takeWhile_append_of_mem {xs : List Char} {c : Char} (h : c ∈ xs) (hc : c ≠ '/')
    (ys : List Char) : (xs ++ ys).takeWhile (· = '/') = xs.takeWhile (· = '/') := by
  rw [List.takeWhile_append, if_neg]
  intro hlength
  have hall := List.takeWhile_eq_self_iff.1 ((List.takeWhile_prefix _).eq_of_length hlength)
  exact hc (of_decide_eq_true (hall c h))

/-- The last slash and what stands around it. -/
theorem exists_last_slash {xs : List Char} (h : '/' ∈ xs) :
    ∃ stem base, xs = stem ++ '/' :: base ∧ '/' ∉ base ∧
      (xs.reverse.dropWhile (· ≠ '/')).reverse = stem ++ ['/'] := by
  obtain ⟨base, stem, hxs, hbase⟩ := List.eq_append_cons_of_mem (List.mem_reverse.2 h)
  refine ⟨stem.reverse, base.reverse, ?_, by simpa using hbase, ?_⟩
  · rw [← List.reverse_inj, hxs]
    simp
  · have hall : ∀ c ∈ base, decide (c ≠ '/') = true := fun c hc =>
      decide_eq_true fun h => hbase (h ▸ hc)
    rw [hxs, List.dropWhile_append_of_pos hall]
    simp

/-- Characters without the slashes at their end, and those. -/
theorem exists_stripped (xs : List Char) :
    ∃ k, xs = (xs.reverse.dropWhile (· = '/')).reverse ++ List.replicate k '/' := by
  have hall : xs.reverse.takeWhile (· = '/') =
      List.replicate (xs.reverse.takeWhile (· = '/')).length '/' :=
    List.eq_replicate_of_mem fun c hc => by simpa using List.mem_takeWhile_imp hc
  refine ⟨(xs.reverse.takeWhile (· = '/')).length, ?_⟩
  rw [← List.reverse_inj, List.reverse_append, List.reverse_reverse, List.reverse_replicate, ← hall,
    List.takeWhile_append_dropWhile]

theorem parse_directory (h : Spelling.isAbsolute s = true) :
    (parse (Spelling.directory s)).anchor = (parse s).anchor ∧
      ∃ last, (parse s).names = (parse (Spelling.directory s)).names ++ last ∧ last.length ≤ 1 := by
  have hhead : s.toList.head? = some '/' := by simpa [Spelling.isAbsolute] using h
  obtain ⟨stem, base, hs, hbase, hdirectory⟩ := exists_last_slash (List.mem_of_head? hhead)
  suffices hsame : (Spelling.directory s).toList.takeWhile (· = '/') =
      s.toList.takeWhile (· = '/') ∧ namesOf (Spelling.directory s).toList = namesOf stem by
    refine ⟨by rw [parse, parse, hsame.1], namesOf base, ?_, length_namesOf_of_not_mem hbase⟩
    rw [parse, parse, hsame.2, hs]
    exact namesOf_append stem base
  have hhead : namesOf (stem ++ ['/']) = namesOf stem := namesOf_append_replicate stem 1
  unfold Spelling.directory
  rw [hdirectory]
  dsimp only
  by_cases hall : (stem ++ ['/']).all (· = '/') = true
  · rw [if_pos hall, String.toList_ofList, hs]
    refine ⟨?_, hhead⟩
    have hnone : base.takeWhile (· = '/') = [] := by
      cases base with
      | nil => rfl
      | cons c cs =>
        have hc : c ≠ '/' := fun hc => hbase (by simp [hc])
        simp [hc]
    rw [List.append_cons stem '/' base, List.takeWhile_append_of_pos (List.all_eq_true.1 hall),
      hnone, List.takeWhile_eq_self_iff.2 (List.all_eq_true.1 hall), List.append_nil]
  · obtain ⟨k, hk⟩ := exists_stripped (stem ++ ['/'])
    rw [if_neg hall, String.toList_ofList]
    generalize ((stem ++ ['/']).reverse.dropWhile (· = '/')).reverse = directory at hk
    refine ⟨?_, by rw [← hhead, hk, namesOf_append_replicate]⟩
    obtain ⟨c, hc, hslash⟩ : ∃ c ∈ directory, c ≠ '/' := by
      by_contra hslashes
      exact hall (by rw [hk]; simpa using hslashes)
    rw [hs, List.append_cons stem '/' base, hk, List.append_assoc,
      takeWhile_append_of_mem hc hslash]

/-! ## Ancestors -/

theorem contains_self (p : Path) : p.contains p = true := contains_iff.2 ⟨rfl, List.prefix_rfl⟩

theorem ordinary_of_contains (h : d.contains p = true) (hp : ∀ n ∈ p.names, Ordinary n) :
    ∀ n ∈ d.names, Ordinary n :=
  fun n hn => hp n ((contains_iff.1 h).2.subset hn)

theorem mem_tailsOf {α : Type} {t l : List α} : t ∈ tailsOf l ↔ t <:+ l := by
  induction l with
  | nil => simp [tailsOf]
  | cons a l ih => rw [tailsOf, List.mem_cons, ih, List.suffix_cons_iff]

theorem mem_chain : d ∈ p.chain ↔ d.contains p = true := by
  simp only [chain, List.mem_map, mem_tailsOf, contains_iff]
  constructor
  · rintro ⟨t, ht, rfl⟩
    exact ⟨rfl, List.reverse_suffix.1 (by rwa [List.reverse_reverse])⟩
  · rintro ⟨hanchor, hnames⟩
    refine ⟨d.names.reverse, List.reverse_suffix.2 hnames, ?_⟩
    rw [List.reverse_reverse, ← hanchor]

theorem tailsOf_sorted {α : Type} (l : List α) :
    (tailsOf l).Pairwise fun t t' => t'.length < t.length := by
  induction l with
  | nil => exact List.pairwise_singleton _ _
  | cons a l ih =>
    exact List.pairwise_cons.2 ⟨fun t ht => Nat.lt_succ_of_le (mem_tailsOf.1 ht).length_le, ih⟩

theorem chain_sorted (p : Path) : p.chain.Pairwise fun d d' => d'.depth < d.depth := by
  refine List.Pairwise.map _ (fun t t' h => ?_) (tailsOf_sorted p.names.reverse)
  simpa [depth] using h

end FormatServer.Path
