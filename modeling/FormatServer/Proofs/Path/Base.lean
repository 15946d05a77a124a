import FormatServer.IgnoreFile

/-!
# The last component of a path

A name that is joined onto a path is its last component (`base_toString_join`), so a file that is
found by a name has that name (`IgnoreFile.base_locate`).
-/

set_option autoImplicit false

namespace FormatServer

theorem Spelling.base_append {name : String} (hname : '/' ∉ name.toList) {stem : String}
    (hstem : stem = "" ∨ ∃ s, stem = s ++ "/") : base (stem ++ name) = name := by
  have hall : ∀ c ∈ name.toList.reverse, decide (c ≠ '/') = true := fun c hc =>
    decide_eq_true fun h => hname (h ▸ List.mem_reverse.1 hc)
  have htake : (stem ++ name).toList.reverse.takeWhile (· ≠ '/') = name.toList.reverse := by
    rw [String.toList_append, List.reverse_append, List.takeWhile_append_of_pos hall]
    obtain rfl | ⟨s, rfl⟩ := hstem
    · exact List.append_nil _
    · rw [String.toList_append, List.reverse_append]
      exact List.append_nil _
  rw [base, htake, List.reverse_reverse, String.ofList_toList]

namespace Path

/-- What stands before the last component in the text of a path. -/
theorem toString_concat (a : Anchor) (names : List String) (name : String) :
    ∃ stem, Path.toString ⟨a, names ++ [name]⟩ = stem ++ name ∧
      (stem = "" ∨ ∃ s, stem = s ++ "/") := by
  have hbody : ∃ stem, "/".intercalate (names ++ [name]) = stem ++ name ∧
      (stem = "" ∨ ∃ s, stem = s ++ "/") := by
    by_cases h : names = []
    · subst h
      exact ⟨"", by simp, .inl rfl⟩
    · rw [String.intercalate_append_of_ne_nil h (by simp), String.intercalate_singleton]
      exact ⟨_, rfl, .inr ⟨_, rfl⟩⟩
  obtain ⟨stem, hstem, hend⟩ := hbody
  have hne : (names ++ [name]).isEmpty = false := by simp
  cases a with
  | relative =>
    refine ⟨stem, ?_, hend⟩
    simp only [Path.toString, hne, hstem]
    rfl
  | root =>
    refine ⟨"/" ++ stem, ?_, .inr ?_⟩
    · simp only [Path.toString, hstem, String.append_assoc]
    · obtain rfl | ⟨s, rfl⟩ := hend
      · exact ⟨"", by simp⟩
      · exact ⟨"/" ++ s, by rw [String.append_assoc]⟩
  | doubleRoot =>
    refine ⟨"//" ++ stem, ?_, .inr ?_⟩
    · simp only [Path.toString, hstem, String.append_assoc]
    · obtain rfl | ⟨s, rfl⟩ := hend
      · exact ⟨"/", by decide⟩
      · exact ⟨"//" ++ s, by rw [String.append_assoc]⟩

theorem base_toString_join (p : Path) {name : String} (hname : '/' ∉ name.toList)
    (hparse : parse name = ⟨.relative, [name]⟩) :
    Spelling.base (p.join (parse name)).toString = name := by
  rw [hparse]
  obtain ⟨stem, hstem, hend⟩ := toString_concat p.anchor p.names name
  show Spelling.base (Path.toString ⟨p.anchor, p.names ++ [name]⟩) = name
  rw [hstem]
  exact Spelling.base_append hname hend

end Path

theorem Workspace.base_findUp {files : Files} {name start : String} {stop : Option String} {p : Path}
    (hbase : ∀ q : Path, Spelling.base (q.join (Path.parse name)).toString = name)
    (h : findUp files name start stop = .ok (some p)) : Spelling.base p.toString = name := by
  obtain ⟨before, after, hsplit, _⟩ := firstExisting_eq_some.1 h
  have hmem : p ∈ before ++ p :: after := List.mem_append_right before List.mem_cons_self
  rw [← hsplit] at hmem
  obtain ⟨q, _, rfl⟩ := List.mem_map.1 hmem
  exact hbase q

theorem Workspace.base_resolve {home : String} {folders : List Folder} {file f : String}
    (hbase : ∀ q : Path,
      Spelling.base (q.join (Path.parse defaultIgnorePath)).toString = defaultIgnorePath)
    (h : resolve home folders file defaultIgnorePath = .ok (some f)) :
    Spelling.base f = defaultIgnorePath := by
  unfold resolve at h
  rw [if_neg (by decide)] at h
  cases hfound : Folder.containing folders file with
  | error e => rw [hfound] at h; cases h
  | ok found? =>
    rw [hfound] at h
    cases found? with
    | none => cases h
    | some found => cases h; exact hbase found.2

/-- The ignore file with the default name has that name. -/
theorem IgnoreFile.base_locate {w : World} {path f : String}
    (h : locate w path defaultIgnorePath = .ok (some f)) : Spelling.base f = defaultIgnorePath := by
  have hbase : ∀ q : Path, Spelling.base (q.join (Path.parse defaultIgnorePath)).toString =
      defaultIgnorePath := fun q => q.base_toString_join (by decide) (by decide)
  unfold locate at h
  cases hnamed : Workspace.resolve w.home w.folders path defaultIgnorePath with
  | error e => rw [hnamed] at h; cases h
  | ok named? =>
    rw [hnamed] at h
    dsimp only [bind, Except.bind, pure, Except.pure] at h
    split at h
    · next file hfile =>
      cases h
      obtain ⟨hsome, _⟩ := Option.filter_eq_some_iff.1 hfile
      subst hsome
      exact Workspace.base_resolve hbase hnamed
    · rw [if_neg (by decide)] at h
      unfold nearest at h
      cases hfolder : Folder.containing w.folders path with
      | error e => rw [hfolder] at h; cases h
      | ok folder? =>
        rw [hfolder] at h
        dsimp only [bind, Except.bind, pure, Except.pure] at h
        generalize hp : Workspace.findUp w.files defaultIgnorePath (Spelling.directory path)
          (folder?.map fun f => f.2.toString) = p? at h
        rcases p? with e | _ | p
        · cases h
        · cases h
        · cases h
          exact Workspace.base_findUp hbase hp

/-! ## Splitting the text of a path -/

theorem Text.splitAtEach_append {α : Type} [DecidableEq α] {sep : α} (xs ys : List α) :
    splitAtEach sep (xs ++ sep :: ys) = splitAtEach sep xs ++ splitAtEach sep ys := by
  induction xs with
  | nil => simp [splitAtEach]
  | cons x xs ih =>
    simp only [List.cons_append, splitAtEach, ih]
    split
    · rfl
    · cases h : splitAtEach sep xs with
      | nil => exact absurd h (splitAtEach_ne_nil sep xs)
      | cons p ps => rfl

theorem Text.splitAtEach_of_not_mem {α : Type} [DecidableEq α] {sep : α} {xs : List α}
    (h : sep ∉ xs) : splitAtEach sep xs = [xs] := by
  induction xs with
  | nil => rfl
  | cons x xs ih =>
    rw [List.mem_cons, not_or] at h
    rw [splitAtEach, if_neg (Ne.symm h.1), ih h.2]

end FormatServer
