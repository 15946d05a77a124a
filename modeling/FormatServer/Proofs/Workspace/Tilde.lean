import FormatServer.Proofs.Workspace.Folder
import FormatServer.Workspace.Setting

/-!
# Tildes in the settings

A path in the settings is resolved against the home directory or the folder of the file, and never
against the working directory, with one exception (`resolve_isAbsolute`): a tilde that begins a name
and stands for no directory is handed on as it is.
-/

set_option autoImplicit false

namespace FormatServer

theorem Path.toString_isAbsolute {p : Path} (h : p.anchor ≠ .relative) :
    Spelling.isAbsolute p.toString = true := by
  unfold Path.toString Spelling.isAbsolute
  cases ha : p.anchor with
  | relative => exact absurd ha h
  | root => simp
  | doubleRoot => simp

theorem Path.join_anchor {p q : Path} (h : p.anchor ≠ .relative) :
    (p.join q).anchor ≠ .relative := by
  unfold join
  split
  · exact h
  · next hq => exact hq

/-- No folder has a root that starts at the working directory. -/
def Folder.Anchored (folders : List Folder) : Prop :=
  ∀ f ∈ folders, ∀ root, f.root? = .ok (some root) → root.anchor ≠ .relative

namespace Workspace

/-- The setting begins with a tilde that does not stand for the home directory. -/
def strayTilde (setting : String) : Bool :=
  match setting.toList with
  | '~' :: rest => !endsTilde rest
  | _ => false

variable {home file setting : String} {folders : List Folder}

theorem homeDirectory_isAbsolute (h : Spelling.isAbsolute home = true) :
    Spelling.isAbsolute (homeDirectory home) = true := by
  unfold homeDirectory
  split
  · rfl
  · next cs hcs =>
    -- what is left without the slashes at the end begins as the whole
    have hprefix : (home.toList.reverse.dropWhile (· = '/')).reverse <+: home.toList :=
      List.reverse_suffix.1 (by
        rw [List.reverse_reverse]
        exact List.dropWhile_suffix _)
    obtain ⟨rest, hrest⟩ := hprefix
    have hhead : home.toList.head? = some '/' := by simpa [Spelling.isAbsolute] using h
    rw [← hrest, List.head?_append_of_ne_nil _ hcs] at hhead
    simpa [Spelling.isAbsolute] using hhead

theorem isAbsolute_append {s : String} (h : Spelling.isAbsolute s = true) (rest : String) :
    Spelling.isAbsolute (s ++ rest) = true := by
  simp only [Spelling.isAbsolute, decide_eq_true_eq] at h ⊢
  rw [String.toList_append, List.head?_append, h, Option.some_or]

theorem expandHome_of_strayTilde (home : String) (h : strayTilde setting = true) :
    setting.toList.head? = some '~' ∧ expandHome home setting = setting := by
  unfold strayTilde at h
  unfold expandHome
  split at h
  · next rest hrest =>
    rw [hrest]
    exact ⟨rfl, if_neg (by simpa using h)⟩
  · cases h

theorem expandHome_isAbsolute (hhome : Spelling.isAbsolute home = true)
    (htilde : setting.toList.head? = some '~') (h : strayTilde setting = false) :
    Spelling.isAbsolute (expandHome home setting) = true := by
  obtain ⟨rest, hrest⟩ := List.head?_eq_some_iff.1 htilde
  unfold strayTilde at h
  unfold expandHome
  rw [hrest] at h ⊢
  show Spelling.isAbsolute (if endsTilde rest then _ else _) = true
  rw [if_pos (by simpa using h)]
  exact isAbsolute_append (homeDirectory_isAbsolute hhome) _

theorem isAbsolute_of_contained {root : Path} (h : root.anchor ≠ .relative) :
    Spelling.isAbsolute (if Spelling.isAbsolute setting then setting
      else (root.join (Path.parse setting)).toString) = true := by
  split
  · assumption
  · exact Path.toString_isAbsolute (Path.join_anchor h)

/-- With folders and a home directory that are absolute, what a setting comes to is absolute unless
a stray tilde begins it, and then it is the setting itself. -/
theorem resolve_isAbsolute (hhome : Spelling.isAbsolute home = true)
    (hfolders : Folder.Legible folders) (hanchored : Folder.Anchored folders) :
    ∃ resolved?, resolve home folders file setting = .ok resolved? ∧
      (∀ resolved, resolved? = some resolved →
        (Spelling.isAbsolute resolved = true ↔ strayTilde setting = false)) ∧
      (strayTilde setting = true → resolved? = some setting) := by
  unfold resolve
  by_cases htilde : setting.toList.head? = some '~'
  · rw [if_pos htilde]
    refine ⟨_, rfl, fun resolved hresolved => ?_, fun hstray => ?_⟩
    · cases hresolved
      cases hstray : strayTilde setting with
      | true => simp [(expandHome_of_strayTilde home hstray).2, Spelling.isAbsolute, htilde]
      | false => simp [expandHome_isAbsolute hhome htilde hstray]
    · rw [(expandHome_of_strayTilde home hstray).2]
  · have hstray : strayTilde setting = false := by
      by_contra h
      exact htilde (expandHome_of_strayTilde home (by simpa using h)).1
    obtain ⟨found?, hfound⟩ := Folder.containing_orderly hfolders file
    rw [if_neg htilde, hfound, hstray]
    refine ⟨_, rfl, fun resolved hresolved => ?_, fun h => by cases h⟩
    obtain ⟨⟨f, root⟩, rfl, rfl⟩ := Option.map_eq_some_iff.1 hresolved
    obtain ⟨f', hf', hroot⟩ := (Folder.containing_deepest hfound).folder
    exact iff_of_true (isAbsolute_of_contained (hanchored f' hf' root hroot)) rfl

/-- A tilde that begins a name leaves the setting relative, unlike the home directory. -/
theorem resolve_isAbsolute_tildes :
    let folders := [(⟨"file:///work", "work"⟩ : Folder)]
    let run := fun setting => resolve "/home/dev" folders "/work/a.js" setting
    run "~user/x" = .ok (some "~user/x") ∧ run "~/x" = .ok (some "/home/dev/x") ∧
      run "x" = .ok (some "/work/x") ∧
      ∀ setting, ∃ resolved?, run setting = .ok resolved? ∧
        (∀ resolved, resolved? = some resolved →
          (Spelling.isAbsolute resolved = true ↔ strayTilde setting = false)) ∧
        (strayTilde setting = true → resolved? = some setting) :=
  have hroot : Folder.root? ⟨"file:///work", "work"⟩ = .ok (some ⟨.root, ["work"]⟩) := by
    decide +kernel
  ⟨by decide +kernel, by decide +kernel, by decide +kernel, fun _ =>
    resolve_isAbsolute (by decide) (List.forall_mem_singleton.2 ⟨_, rfl⟩)
      (List.forall_mem_singleton.2 fun root h => by
        cases hroot.symm.trans h
        decide)⟩

end Workspace

end FormatServer
