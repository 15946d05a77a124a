import FormatServer.Proofs.World.Orderly

/-!
# The folder of a path

Of the folders those count that have a root (`mem_rooted`); one of them is the folder of a path as
soon as one contains it (`containing_isSome_iff`), its root is the deepest one that does
(`containing_deepest`), and all of them need to have URIs for that (`containing_of_not_legible`).
-/

set_option autoImplicit false

namespace FormatServer.Folder

variable {folders : List Folder} {path : String}

/-- The folders have URIs. -/
def Legible (folders : List Folder) : Prop := ∀ f ∈ folders, Uri.Parses f.uri

/-- A folder contains the path, component by component. -/
def Contained (folders : List Folder) (path : String) : Prop :=
  ∃ f ∈ folders, ∃ root, f.root? = .ok (some root) ∧ root.contains (Path.parse path) = true

theorem withRoot_eq_some {f : Folder} {x : Folder × Path} :
    f.withRoot = .ok (some x) ↔ f = x.1 ∧ f.root? = .ok (some x.2) := by
  obtain ⟨f', root⟩ := x
  unfold withRoot
  cases f.root? with
  | error e => simp [Except.map]
  | ok root? => cases root? <;> simp [Except.map]

theorem parses_of_withRoot {f : Folder} {root? : Option (Folder × Path)}
    (h : f.withRoot = .ok root?) : Uri.Parses f.uri := by
  unfold withRoot Folder.root? Uri.toPath at h
  cases hp : Uri.parse f.uri with
  | ok u => exact ⟨u, hp⟩
  | error e => rw [hp] at h; cases h

theorem mem_rooted {rs : List (Folder × Path)} (h : rooted folders = .ok rs) {x : Folder × Path} :
    x ∈ rs ↔ x.1 ∈ folders ∧ x.1.root? = .ok (some x.2) := by
  unfold rooted at h
  cases hroots : folders.mapM withRoot with
  | error e => rw [hroots] at h; cases h
  | ok roots =>
    rw [hroots] at h
    cases h
    simp only [List.mem_filterMap, id_eq, exists_eq_right, mem_mapM hroots, withRoot_eq_some]
    constructor
    · rintro ⟨_, hmem, rfl, hroot⟩
      exact ⟨hmem, hroot⟩
    · exact fun ⟨hmem, hroot⟩ => ⟨_, hmem, rfl, hroot⟩

/-- Of some folders there is a deepest one. -/
theorem foldl_deeper_isSome (best? : Option (Folder × Path)) (rs : List (Folder × Path)) :
    (rs.foldl deeper best?).isSome = (best?.isSome || !rs.isEmpty) := by
  induction rs generalizing best? with
  | nil => simp
  | cons r rs ih =>
    have hdeeper : (deeper best? r).isSome = true := by
      unfold deeper
      split
      · rfl
      · split <;> rfl
    rw [List.foldl_cons, ih, hdeeper]
    simp

theorem containing_isSome_iff {found? : Option (Folder × Path)}
    (h : containing folders path = .ok found?) : found?.isSome = true ↔ Contained folders path := by
  unfold containing at h
  cases hrooted : rooted folders with
  | error e => rw [hrooted] at h; cases h
  | ok rs =>
    rw [hrooted] at h
    cases h
    rw [foldl_deeper_isSome, Option.isSome_none, Bool.false_or, Bool.not_eq_true',
      List.isEmpty_eq_false_iff_exists_mem]
    simp only [List.mem_filter, mem_rooted hrooted, Contained, Prod.exists]
    constructor
    · rintro ⟨f, root, ⟨hmem, hroot⟩, hcontains⟩
      exact ⟨f, hmem, root, hroot, hcontains⟩
    · rintro ⟨f, hmem, root, hroot, hcontains⟩
      exact ⟨f, root, ⟨hmem, hroot⟩, hcontains⟩

/-! ## The deepest folder -/

/-- A root of a folder that contains the path, none of the others that do lying deeper. -/
structure Deepest (folders : List Folder) (path : String) (root : Path) : Prop where
  folder : ∃ f ∈ folders, f.root? = .ok (some root)
  contains : root.contains (Path.parse path) = true
  deepest : ∀ f ∈ folders, ∀ root', f.root? = .ok (some root') →
    root'.contains (Path.parse path) = true → root'.depth ≤ root.depth

theorem foldl_deeper {best? : Option (Folder × Path)} {rs : List (Folder × Path)}
    {x : Folder × Path} (h : rs.foldl deeper best? = some x) :
    (best? = some x ∨ x ∈ rs) ∧ ∀ y, best? = some y ∨ y ∈ rs → y.2.depth ≤ x.2.depth := by
  induction rs generalizing best? with
  | nil =>
    rw [List.foldl_nil] at h
    subst h
    exact ⟨.inl rfl, by simp⟩
  | cons r rs ih =>
    obtain ⟨hmem, hdeepest⟩ := ih h
    -- the deeper one of the best so far and the next is one of the two, and none of them is deeper
    have hdeeper : ∃ y, deeper best? r = some y ∧ (best? = some y ∨ y = r) ∧
        r.2.depth ≤ y.2.depth ∧ ∀ z, best? = some z → z.2.depth ≤ y.2.depth := by
      cases best? with
      | none => exact ⟨r, rfl, .inr rfl, Nat.le_refl _, by simp⟩
      | some best =>
        simp only [deeper, Option.some.injEq, forall_eq']
        by_cases hlt : best.2.depth < r.2.depth
        · exact ⟨r, if_pos hlt, .inr rfl, Nat.le_refl _, Nat.le_of_lt hlt⟩
        · exact ⟨best, if_neg hlt, .inl rfl, Nat.le_of_not_lt hlt, Nat.le_refl _⟩
    obtain ⟨y, hy, hyr, hr, hbest⟩ := hdeeper
    have hyx : y.2.depth ≤ x.2.depth := hdeepest y (.inl hy)
    refine ⟨?_, ?_⟩
    · rcases hmem with hmem | hmem
      · obtain rfl : y = x := Option.some.inj (hy ▸ hmem)
        exact hyr.imp_right fun hyr => List.mem_cons.2 (.inl hyr)
      · exact .inr (.tail _ hmem)
    · rintro z (hz | hz)
      · exact Nat.le_trans (hbest z hz) hyx
      · rcases List.mem_cons.1 hz with rfl | hz
        · exact Nat.le_trans hr hyx
        · exact hdeepest z (.inr hz)

theorem containing_deepest {f : Folder} {root : Path}
    (h : containing folders path = .ok (some (f, root))) : Deepest folders path root := by
  unfold containing at h
  cases hrooted : rooted folders with
  | error e => rw [hrooted] at h; cases h
  | ok rs =>
    rw [hrooted] at h
    obtain ⟨hmem, hdeepest⟩ := foldl_deeper (Except.ok.inj h)
    simp only [reduceCtorEq, false_or, List.mem_filter, mem_rooted hrooted] at hmem hdeepest
    exact ⟨⟨f, hmem.1⟩, hmem.2, fun f' hf' root' hroot' hcontains' =>
      hdeepest (f', root') ⟨⟨hf', hroot'⟩, hcontains'⟩⟩

/-- Of the roots that contain a path each depth has one. -/
theorem Deepest.unique {root root' : Path} (h : Deepest folders path root)
    (h' : Deepest folders path root') : root' = root := by
  obtain ⟨f, hf, hroot⟩ := h.folder
  obtain ⟨f', hf', hroot'⟩ := h'.folder
  have hdepth : root'.depth = root.depth :=
    Nat.le_antisymm (h.deepest f' hf' root' hroot' h'.contains)
      (h'.deepest f hf root hroot h.contains)
  obtain ⟨hanchor, hnames⟩ := Path.contains_iff.1 h.contains
  obtain ⟨hanchor', hnames'⟩ := Path.contains_iff.1 h'.contains
  have hlength : root'.names.length = root.names.length := by
    simpa only [Path.depth, hanchor, hanchor', Nat.add_right_cancel_iff] using hdepth
  have hprefix : root'.names <+: root.names :=
    List.prefix_of_prefix_length_le hnames' hnames (Nat.le_of_eq hlength)
  show (⟨root'.anchor, root'.names⟩ : Path) = ⟨root.anchor, root.names⟩
  rw [hanchor', hanchor, hprefix.eq_of_length hlength]

theorem containing_of_not_legible (h : ¬ Legible folders) :
    containing folders path = .error .malformedUri := by
  cases hcontaining : containing folders path with
  | error e => rw [(containing_error hcontaining).1]
  | ok found? =>
    refine absurd (fun f hf => ?_) h
    unfold containing rooted at hcontaining
    cases hroots : folders.mapM withRoot with
    | error e => rw [hroots] at hcontaining; cases hcontaining
    | ok roots =>
      obtain ⟨root?, hroot⟩ := ok_of_mapM hroots f hf
      exact parses_of_withRoot hroot

end FormatServer.Folder
