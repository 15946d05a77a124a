import Mathlib.Data.List.TakeWhile
import FormatServer.Proofs.Path.Base

/-!
# The extension of a path

A path ends in an extension (`Spelling.EndsIn`) if the last dot of its last component has something
other than dots before it in that component: a dot in a directory and the dots that a name begins
with start no extension. `Spelling.extension` is that extension (`extension_of_endsIn`), and empty if
the path ends in none (`endsIn_extension`).
-/

set_option autoImplicit false

namespace FormatServer.Spelling

/-- The path ends in an extension: a directory, which may be missing, a name that is not dots alone,
a dot, and what follows the last dot. -/
inductive EndsIn : String → String → Prop where
  | intro {directory name rest : List Char}
      (directory_slash : directory = [] ∨ ∃ cs, directory = cs ++ ['/'])
      (name_slash : '/' ∉ name) (name_dots : ∃ c ∈ name, c ≠ '.')
      (rest_slash : '/' ∉ rest) (rest_dot : '.' ∉ rest) :
      EndsIn (String.ofList (directory ++ name ++ '.' :: rest)) (String.ofList ('.' :: rest))

/-- What follows the last occurrence of a character. -/
theorem takeWhile_reverse_append {left right : List Char} {c : Char} (h : c ∉ right) :
    ((left ++ c :: right).reverse.takeWhile (· ≠ c)).reverse = right := by
  have hall : ∀ c' ∈ right.reverse, decide (c' ≠ c) = true := fun c' hc' =>
    decide_eq_true fun he => h (he ▸ List.mem_reverse.1 hc')
  rw [List.reverse_append, List.reverse_cons, List.append_assoc,
    List.takeWhile_append_of_pos hall]
  simp

theorem exists_last {c : Char} {cs : List Char} (h : c ∈ cs) :
    ∃ left right, cs = left ++ c :: right ∧ c ∉ right := by
  obtain ⟨right, left, hcs, hright⟩ := List.eq_append_cons_of_mem (List.mem_reverse.2 h)
  refine ⟨left.reverse, right.reverse, ?_, by rwa [List.mem_reverse]⟩
  rw [← List.reverse_inj, hcs]
  simp

/-- A path is what stands before its last component, and that. -/
theorem exists_directory (path : String) : ∃ directory, path.toList = directory ++ (base path).toList ∧
    (directory = [] ∨ ∃ cs, directory = cs ++ ['/']) ∧ '/' ∉ (base path).toList := by
  rw [base, String.toList_ofList]
  by_cases h : '/' ∈ path.toList
  · obtain ⟨left, right, hpath, hright⟩ := exists_last h
    rw [hpath, takeWhile_reverse_append hright]
    exact ⟨left ++ ['/'], by rw [List.append_assoc]; rfl, .inr ⟨left, rfl⟩, hright⟩
  · have hall : ∀ c ∈ path.toList.reverse, decide (c ≠ '/') = true := fun c hc =>
      decide_eq_true fun he => h (he ▸ List.mem_reverse.1 hc)
    rw [List.takeWhile_eq_self_iff.2 hall, List.reverse_reverse]
    exact ⟨[], rfl, .inl rfl, h⟩

theorem extension_of_endsIn {path e : String} (h : EndsIn path e) : extension path = e := by
  obtain ⟨hdirectory, hname, ⟨c, hc, hdot⟩, hslash, hrest⟩ := h
  rename_i directory name rest
  have hbase : base (String.ofList (directory ++ name ++ '.' :: rest)) =
      String.ofList (name ++ '.' :: rest) := by
    have hno : '/' ∉ (String.ofList (name ++ '.' :: rest)).toList := by
      simp [hname, hslash]
    have hstem : String.ofList directory = "" ∨ ∃ s, String.ofList directory = s ++ "/" := by
      rcases hdirectory with rfl | ⟨cs, rfl⟩
      · exact .inl rfl
      · exact .inr ⟨String.ofList cs, String.ofList_append⟩
    rw [List.append_assoc, String.ofList_append]
    exact base_append hno hstem
  have hstem : (name ++ '.' :: rest).dropWhile (· = '.') =
      name.dropWhile (· = '.') ++ '.' :: rest := by
    rw [List.dropWhile_append, if_neg]
    rw [List.isEmpty_iff, List.dropWhile_eq_nil_iff]
    exact fun hall => hdot (of_decide_eq_true (hall c hc))
  rw [extension, hbase, String.toList_ofList, hstem, if_pos (by simp), takeWhile_reverse_append hrest]

theorem endsIn_extension {path : String} (h : extension path ≠ "") :
    EndsIn path (extension path) := by
  obtain ⟨directory, hpath, hdirectory, hslash⟩ := exists_directory path
  unfold extension at h ⊢
  generalize hdots : (base path).toList.dropWhile (· = '.') = stem at h ⊢
  dsimp only at h ⊢
  split at h
  · next hdot =>
    rw [if_pos hdot]
    obtain ⟨left, right, rfl, hright⟩ := exists_last (List.contains_iff_mem.1 hdot)
    rw [takeWhile_reverse_append hright]
    have hbase : (base path).toList =
        (base path).toList.takeWhile (· = '.') ++ left ++ '.' :: right := by
      rw [List.append_assoc, ← hdots, List.takeWhile_append_dropWhile]
    -- the stem does not begin with a dot
    obtain ⟨c, hc, hne⟩ : ∃ c ∈ left, c ≠ '.' := by
      cases left with
      | nil =>
        have hhead := List.head_dropWhile_not (fun c => decide (c = '.')) (l := (base path).toList)
          (by rw [hdots]; exact List.cons_ne_nil _ _)
        simp [hdots] at hhead
      | cons c left =>
        have hhead := List.head_dropWhile_not (fun c => decide (c = '.')) (l := (base path).toList)
          (by rw [hdots]; exact List.cons_ne_nil _ _)
        exact ⟨c, List.mem_cons_self, by simpa [hdots] using hhead⟩
    rw [hbase] at hslash
    rw [← String.ofList_toList (s := path), hpath, hbase, ← List.append_assoc]
    refine .intro hdirectory ?_ ⟨c, List.mem_append_right _ hc, hne⟩ ?_ hright
    · exact fun hm => hslash (List.mem_append_left _ hm)
    · exact fun hm => hslash (List.mem_append_right _ (.tail _ hm))
  · exact absurd rfl h

theorem EndsIn.ne_empty {path e : String} (h : EndsIn path e) : e ≠ "" := by
  obtain ⟨-, -, -, -, -⟩ := h
  exact fun he => absurd (congrArg String.toList he) (by simp)

example : extension "/a.b/..rc.d/.x.tar.gz" = ".gz" ∧ extension "/a.b/.rc" = "" := by decide

end FormatServer.Spelling
