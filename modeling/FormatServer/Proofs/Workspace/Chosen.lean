import FormatServer.Proofs.Path.Parse
import FormatServer.Proofs.Workspace.Folder

/-!
# Which folder is chosen

Of the folders whose roots lie at or above a path (`Path.AtOrAbove`) the first of the deepest ones
is chosen, and none if there are none of them (`containing_chosen`). Two roots of equal depth above
one path are the same root, so that the order of the folders decides which of the folders with the
root is chosen, and never which root.
-/

set_option autoImplicit false

namespace FormatServer

/-- The first path is the second one itself, or its parent, or the parent of that, and so on. -/
inductive Path.AtOrAbove (d : Path) : Path → Prop
  | self : AtOrAbove d d
  | parent {p : Path} : AtOrAbove d p.parent → AtOrAbove d p

theorem Path.atOrAbove_iff {d p : Path} : AtOrAbove d p ↔ d.contains p = true := by
  rw [← mem_chain]
  constructor
  · intro h
    induction h with
    | self => exact mem_chain.2 (contains_self d)
    | @parent p _ ih =>
      rw [chain_eq]
      split
      · next hnames =>
        rwa [parent_of_names_nil hnames, chain_eq, if_pos hnames] at ih
      · exact .tail _ ih
  · intro h
    -- the parent has fewer names, until there are none
    induction hlength : p.names.length generalizing p with
    | zero =>
      rw [chain_eq, if_pos (List.length_eq_zero_iff.1 hlength)] at h
      rw [List.mem_singleton.1 h]
      exact .self
    | succ n ih =>
      have hnames : p.names ≠ [] := fun hnil => by rw [hnil] at hlength; cases hlength
      rw [chain_eq, if_neg hnames] at h
      obtain rfl | h := List.mem_cons.1 h
      · exact .self
      · refine .parent (ih h ?_)
        rw [Path.parent, List.length_dropLast, hlength, Nat.add_sub_cancel]

namespace Folder

variable {folders : List Folder} {path : String}

/-- A folder with its root is the first of the deepest ones at or above a path. -/
structure Chosen (folders : List Folder) (path : String) (f : Folder) (root : Path) : Prop where
  rooted : f.root? = .ok (some root)
  above : root.AtOrAbove (Path.parse path)
  deepest : ∀ f' ∈ folders, ∀ root', f'.root? = .ok (some root') →
    root'.AtOrAbove (Path.parse path) → root'.depth ≤ root.depth
  first : ∃ before after, folders = before ++ f :: after ∧
    ∀ f' ∈ before, f'.root? ≠ .ok (some root)

/-- How the folder of a path is chosen. -/
structure Choice (folders : List Folder) (path : String) : Prop where
  /-- There is none if no root lies at or above the path. Otherwise it is the first of the deepest
  ones. -/
  legible : Legible folders → ∃ found?, containing folders path = .ok found? ∧
    (found? = none ↔ ∀ f ∈ folders, ∀ root, f.root? = .ok (some root) →
      ¬ root.AtOrAbove (Path.parse path)) ∧
    ∀ f root, found? = some (f, root) → Chosen folders path f root
  /-- A folder without a URI is a fault. -/
  illegible : ¬ Legible folders → containing folders path = .error .malformedUri
  /-- A folder with an empty path counts as absent. -/
  absent : ∀ before f after, folders = before ++ f :: after → Uri.toPath f.uri = .ok "" →
    containing folders path = containing (before ++ after) path
  /-- In whatever order the folders come, the same root is chosen. -/
  order : ∀ folders', folders.Perm folders' →
    (containing folders' path).map (Option.map Prod.snd) =
      (containing folders path).map (Option.map Prod.snd)

/-! ## The first of the deepest ones -/

theorem foldl_deeper_first {best? : Option (Folder × Path)} {rs : List (Folder × Path)}
    {x : Folder × Path} (h : rs.foldl deeper best? = some x) :
    ∃ before after, best?.toList ++ rs = before ++ x :: after ∧
      ∀ y ∈ before, y.2.depth < x.2.depth := by
  induction rs generalizing best? with
  | nil =>
    rw [List.foldl_nil] at h
    subst h
    exact ⟨[], [], rfl, fun _ hy => nomatch hy⟩
  | cons r rs ih =>
    obtain ⟨before, after, hsplit, hbefore⟩ := ih h
    cases best? with
    | none => exact ⟨before, after, hsplit, hbefore⟩
    | some best =>
      by_cases hlt : best.2.depth < r.2.depth
      · rw [List.foldl_cons, deeper, if_pos hlt] at h
        rw [deeper, if_pos hlt] at hsplit
        have hr : r.2.depth ≤ x.2.depth := (foldl_deeper h).2 r (.inl rfl)
        refine ⟨best :: before, after, congrArg (best :: ·) hsplit, ?_⟩
        exact List.forall_mem_cons.2 ⟨Nat.lt_of_lt_of_le hlt hr, hbefore⟩
      · rw [deeper, if_neg hlt] at hsplit
        cases before with
        | nil =>
          obtain ⟨rfl, rfl⟩ := List.cons_eq_cons.1 hsplit
          exact ⟨[], r :: rs, rfl, fun _ hy => nomatch hy⟩
        | cons y before =>
          obtain ⟨rfl, rfl⟩ := List.cons_eq_cons.1 hsplit
          obtain ⟨hbest, hbefore⟩ := List.forall_mem_cons.1 hbefore
          refine ⟨best :: r :: before, after, rfl, ?_⟩
          have hr : r.2.depth < x.2.depth := Nat.lt_of_le_of_lt (Nat.le_of_not_lt hlt) hbest
          exact List.forall_mem_cons.2 ⟨hbest, List.forall_mem_cons.2 ⟨hr, hbefore⟩⟩

/-! ## Folders with URIs -/

/-- A folder with its root, if it has one that contains the path. -/
def reaching? (path : String) (f : Folder) : Option (Folder × Path) :=
  f.withRoot.toOption.join.filter fun x => x.2.contains (Path.parse path)

theorem reaching?_eq_some {f : Folder} {x : Folder × Path} : f.reaching? path = some x ↔
    f = x.1 ∧ f.root? = .ok (some x.2) ∧ x.2.contains (Path.parse path) = true := by
  rw [reaching?, Option.filter_eq_some_iff, ← and_assoc, ← withRoot_eq_some]
  refine and_congr_left fun _ => ?_
  rcases f.withRoot with e | _ | y <;> simp [Except.toOption]

theorem rooted_of_legible (h : Legible folders) :
    rooted folders = .ok (folders.filterMap fun f => f.withRoot.toOption.join) := by
  unfold rooted
  induction folders with
  | nil => rfl
  | cons f folders ih =>
    obtain ⟨⟨u, hu⟩, hfolders⟩ := List.forall_mem_cons.1 h
    obtain ⟨root?, hroot⟩ : ∃ root?, f.withRoot = .ok root? := by
      unfold withRoot root? Uri.toPath
      rw [hu]
      exact ⟨_, rfl⟩
    replace ih := ih hfolders
    cases hroots : folders.mapM withRoot with
    | error e => rw [hroots] at ih; cases ih
    | ok roots =>
      rw [hroots] at ih
      have hrest : roots.filterMap id = folders.filterMap fun f => f.withRoot.toOption.join :=
        Except.ok.inj ih
      have hjoin : f.withRoot.toOption.join = root? := by rw [hroot]; rfl
      rw [List.mapM_cons, hroot, hroots]
      show Except.ok ((root? :: roots).filterMap id) = _
      rw [List.filterMap_cons, List.filterMap_cons, hjoin, hrest]
      rfl

theorem containing_of_legible (h : Legible folders) (path : String) :
    containing folders path = .ok ((folders.filterMap (reaching? path)).foldl deeper none) := by
  unfold containing
  rw [rooted_of_legible h]
  show Except.ok (List.foldl _ _ (List.filter _ _)) = _
  rw [List.filter_filterMap]
  rfl

theorem containing_chosen_of_some (h : Legible folders) {f : Folder} {root : Path}
    (hfound : containing folders path = .ok (some (f, root))) : Chosen folders path f root := by
  have hdeepest := containing_deepest hfound
  rw [containing_of_legible h] at hfound
  obtain ⟨before, after, hsplit, hbefore⟩ := foldl_deeper_first (Except.ok.inj hfound)
  -- what is chosen comes from a folder, with the deeper ones before it from those before that
  obtain ⟨before', rest, rfl, rfl, hrest⟩ := List.filterMap_eq_append_iff.1 hsplit
  obtain ⟨passed, f', after', rfl, hpassed, hf', -⟩ := List.filterMap_eq_cons_iff.1 hrest
  obtain ⟨rfl, hroot, hcontains⟩ := reaching?_eq_some.1 hf'
  refine ⟨hroot, Path.atOrAbove_iff.2 hdeepest.contains, fun f'' hf'' root' hroot' habove => ?_,
    before' ++ passed, after', by simp, fun f'' hf'' hroot'' => ?_⟩
  · exact hdeepest.deepest f'' hf'' root' hroot' (Path.atOrAbove_iff.1 habove)
  · have hreaching : f''.reaching? path = some (f'', root) :=
      reaching?_eq_some.2 ⟨rfl, hroot'', hcontains⟩
    rcases List.mem_append.1 hf'' with hmem | hmem
    · exact Nat.lt_irrefl _ (hbefore (f'', root) (List.mem_filterMap.2 ⟨f'', hmem, hreaching⟩))
    · rw [hpassed f'' hmem] at hreaching
      cases hreaching

/-! ## The choice -/

theorem contained_iff : Contained folders path ↔ ¬ ∀ f ∈ folders, ∀ root,
    f.root? = .ok (some root) → ¬ root.AtOrAbove (Path.parse path) := by
  simp only [Contained, Path.atOrAbove_iff]
  grind

theorem containing_perm {folders' : List Folder} (h : folders.Perm folders') (path : String) :
    (containing folders' path).map (Option.map Prod.snd) =
      (containing folders path).map (Option.map Prod.snd) := by
  have hlegible : Legible folders' ↔ Legible folders := by simp only [Legible, h.mem_iff]
  have hcontained : Contained folders' path ↔ Contained folders path := by
    simp only [Contained, h.mem_iff]
  by_cases hfolders : Legible folders
  · obtain ⟨found?, hfound⟩ := containing_orderly hfolders path
    obtain ⟨found'?, hfound'⟩ := containing_orderly (hlegible.2 hfolders) path
    rw [← containing_isSome_iff hfound, ← containing_isSome_iff hfound'] at hcontained
    rw [hfound, hfound']
    cases found? with
    | none =>
      rw [Option.isSome_none, Bool.false_eq_true, iff_false, Option.not_isSome_iff_eq_none]
        at hcontained
      rw [hcontained]
    | some x =>
      obtain ⟨x', rfl⟩ := Option.isSome_iff_exists.1 (hcontained.2 rfl)
      have hdeepest' := containing_deepest hfound'
      have hroot : x'.2 = x.2 := (containing_deepest hfound).unique
        ⟨by simpa only [h.mem_iff] using hdeepest'.folder, hdeepest'.contains,
          by simpa only [h.mem_iff] using hdeepest'.deepest⟩
      simp only [Except.map, Option.map, hroot]
  · rw [containing_of_not_legible hfolders,
      containing_of_not_legible (mt hlegible.1 hfolders)]

theorem containing_absent {before after : List Folder} {f : Folder}
    (h : Uri.toPath f.uri = .ok "") :
    containing (before ++ f :: after) path = containing (before ++ after) path := by
  have hwithRoot : f.withRoot = .ok none := by rw [withRoot, root?, h]; rfl
  have hlegible : Legible (before ++ f :: after) ↔ Legible (before ++ after) := by
    have hf := parses_of_withRoot hwithRoot
    simp only [Legible, List.mem_append, List.mem_cons]
    grind
  by_cases hfolders : Legible (before ++ f :: after)
  · have hnone : f.reaching? path = none := by rw [reaching?, hwithRoot]; rfl
    rw [containing_of_legible hfolders, containing_of_legible (hlegible.1 hfolders),
      List.filterMap_append, List.filterMap_append, List.filterMap_cons_none hnone]
  · rw [containing_of_not_legible hfolders,
      containing_of_not_legible (mt hlegible.2 hfolders)]

/-- The folder of a path is the first of the deepest ones at or above it. -/
theorem containing_chosen (folders : List Folder) (path : String) : Choice folders path where
  legible hfolders := by
    obtain ⟨found?, hfound⟩ := containing_orderly hfolders path
    refine ⟨found?, hfound, ?_, ?_⟩
    · rw [← not_iff_not, ← contained_iff, ← containing_isSome_iff hfound, Option.isSome_iff_ne_none]
    · rintro f root rfl
      exact containing_chosen_of_some hfolders hfound
  illegible := containing_of_not_legible
  absent before f after hsplit hpath := by
    rw [hsplit]
    exact containing_absent hpath
  order folders' hperm := containing_perm hperm path

/-- A folder with a URI that cannot be read has no root at or above the path, but instead of none
there is a fault. -/
theorem containing_chosen_illegible :
    let folders : List Folder := [⟨"file://[", "x"⟩]
    (∀ f ∈ folders, Uri.toPath f.uri ≠ .ok "") ∧
      (∀ f ∈ folders, ∀ root, f.root? = .ok (some root) →
        ¬ root.AtOrAbove (Path.parse "/work/a.js")) ∧
      containing folders "/work/a.js" = .error .malformedUri := by
  intro folders
  have hroot : root? ⟨"file://[", "x"⟩ = .error .malformedUri := by decide +kernel
  refine ⟨List.forall_mem_singleton.2 (by decide +kernel), List.forall_mem_singleton.2 ?_, ?_⟩
  · intro root h
    cases hroot.symm.trans h
  · decide +kernel

end Folder

end FormatServer
