import FormatServer.IgnoreFile
import FormatServer.Proofs.Workspace.Folder
import FormatServer.Proofs.Workspace.Search

/-!
# The ignore file of a path

A name in the settings is looked for at the root of the folder of the path first, and then from the
directory of the path upwards, no farther than that root (`ignored_searched`). What is found for a
path in a folder lies below the root of the folder. The search ends with a fault where the system
refuses to say whether a directory has the name; at the root, where it looks first, a refusal counts
as no.
-/

set_option autoImplicit false

namespace FormatServer.IgnoreFile

open Act Workspace

variable {w : World} {path name : String} {root : Path}

/-- The directory of a path, in which a search begins. -/
def directory (path : String) : Path := Path.parse (Spelling.directory path)

/-- How a search ends for a path in a folder with a root. -/
structure Inside (files : Files) (path name : String) (root : Path)
    (outcome : Except Fault (Option String)) : Prop where
  /-- It finds the file at the root, or else the nearest one up to the root. -/
  found : ∀ file, outcome = .ok (some file) ↔
    (Has files name root ∧ file = (root.join (Path.parse name)).toString) ∨
    (¬ Has files name root ∧ ∃ d, Nearest files name (Between (some root) (directory path)) d ∧
      file = (d.join (Path.parse name)).toString)
  /-- It finds nothing if all directories up to the root lack the name. -/
  missing : outcome = .ok none ↔
    ∀ d, Between (some root) (directory path) d → Lacks files name d
  /-- It ends in no other way, unless the system refuses to say whether the directory has the name to
  which it has come. -/
  refused : ∀ e, outcome = .error e ↔ e = .pathRefused ∧ ¬ Has files name root ∧
    ∃ d, Refused files name (Between (some root) (directory path)) d
  /-- What it finds lies below the root. -/
  below : ∀ file, outcome = .ok (some file) →
    root.contains (Path.parse file) = true ∧ Path.parse file ≠ root

/-- How a search ends for a path outside of all folders. -/
structure Outside (files : Files) (path name : String) (outcome : Except Fault (Option String)) :
    Prop where
  /-- It finds the nearest file up to the root of the file system. -/
  found : ∀ file, outcome = .ok (some file) ↔
    ∃ d, Nearest files name (Between none (directory path)) d ∧
      file = (d.join (Path.parse name)).toString
  /-- It finds nothing if all directories up there lack the name. -/
  missing : outcome = .ok none ↔ ∀ d, Between none (directory path) d → Lacks files name d
  /-- It ends in no other way, unless the system refuses to say whether the directory has the name to
  which it has come. -/
  refused : ∀ e, outcome = .error e ↔
    e = .pathRefused ∧ ∃ d, Refused files name (Between none (directory path)) d

/-- How a name is searched for. -/
structure Searched (w : World) (path name : String) : Prop where
  /-- In a folder, from the root of the deepest one that contains the path. -/
  inside : Folder.Legible w.folders → Folder.Contained w.folders path →
    ∃ root, Folder.Deepest w.folders path root ∧
      ∃ outcome, find path (.str name) w = (outcome, w) ∧ Inside w.files path name root outcome
  outside : Folder.Legible w.folders → ¬ Folder.Contained w.folders path →
    ∃ outcome, find path (.str name) w = (outcome, w) ∧ Outside w.files path name outcome
  /-- A folder without a URI is a fault. -/
  illegible : ¬ Folder.Legible w.folders → find path (.str name) w = (.error .malformedUri, w)

/-! ## Directories -/

/-- What contains a path contains its directory, unless it is the path itself. -/
theorem contains_directory (hpath : Spelling.isAbsolute path = true)
    (hroot : root.contains (Path.parse path) = true) (hne : root ≠ Path.parse path) :
    root.contains (directory path) = true := by
  obtain ⟨hanchor, last, hnames, hlast⟩ := Path.parse_directory hpath
  obtain ⟨hrootAnchor, hrootNames⟩ := Path.contains_iff.1 hroot
  rw [Path.contains_iff, directory, hanchor]
  refine ⟨hrootAnchor, ?_⟩
  by_cases hle : root.names.length ≤ (Path.parse (Spelling.directory path)).names.length
  · exact List.prefix_of_prefix_length_le (hnames ▸ hrootNames) (List.prefix_append _ _) hle
  · -- a longer one has all the names of the path
    have hlength : (Path.parse path).names.length ≤ root.names.length := by
      rw [hnames, List.length_append]
      omega
    refine absurd ?_ hne
    show (⟨root.anchor, root.names⟩ : Path) = ⟨(Path.parse path).anchor, (Path.parse path).names⟩
    rw [hrootAnchor, hrootNames.eq_of_length_le hlength]

theorem below_join (hname : Path.Ordinary name) {d : Path} (hd : ∀ n ∈ d.names, Path.Ordinary n)
    (h : root.contains d = true) :
    root.contains (Path.parse (d.join (Path.parse name)).toString) = true ∧
      Path.parse (d.join (Path.parse name)).toString ≠ root := by
  have hjoin : d.join (Path.parse name) = ⟨d.anchor, d.names ++ [name]⟩ := by
    rw [Path.parse_of_ordinary hname]
    rfl
  have hordinary : ∀ n ∈ d.names ++ [name], Path.Ordinary n :=
    List.forall_mem_append.2 ⟨hd, List.forall_mem_singleton.2 hname⟩
  obtain ⟨hanchor, hnames⟩ := Path.contains_iff.1 h
  rw [hjoin, Path.parse_toString hordinary, Path.contains_iff]
  refine ⟨⟨hanchor, hnames.trans (List.prefix_append _ _)⟩, ?_⟩
  rintro rfl
  exact absurd hnames.length_le (by simp)

theorem limit_toString (hroot : ∀ n ∈ root.names, Path.Ordinary n) :
    limit (some root.toString) = some root := by
  have hne : root.toString ≠ "" := by
    intro hempty
    have hparse : root = ⟨.relative, []⟩ := by
      rw [← Path.parse_toString hroot, hempty]
      decide
    rw [hparse] at hempty
    exact absurd hempty (by decide)
  simp [limit, hne, Path.parse_toString hroot]

/-! ## The search -/

/-- The spelling of what a search upwards finds. -/
def spelled (found : Except Fault (Option Path)) : Except Fault (Option String) :=
  found.map (Option.map (·.toString))

theorem spelled_eq_some {found : Except Fault (Option Path)} {file : String} :
    spelled found = .ok (some file) ↔ ∃ p, found = .ok (some p) ∧ file = p.toString := by
  rcases found with e | _ | p <;> simp [spelled, Except.map, eq_comm]

theorem spelled_eq_none {found : Except Fault (Option Path)} :
    spelled found = .ok none ↔ found = .ok none := by
  rcases found with e | _ | p <;> simp [spelled, Except.map]

theorem spelled_eq_error {found : Except Fault (Option Path)} {e : Fault} :
    spelled found = .error e ↔ found = .error e := by
  rcases found with e | _ | p <;> simp [spelled, Except.map]

theorem spelled_findUp_eq_some {files : Files} {start file : String} {stop : Option String}
    {stop? : Option Path} (hlimit : limit stop = stop?)
    (hstop : ∀ d, stop? = some d → d.contains (Path.parse start) = true) :
    spelled (findUp files name start stop) = .ok (some file) ↔
      ∃ d, Nearest files name (Between stop? (Path.parse start)) d ∧
        file = (d.join (Path.parse name)).toString := by
  simp only [spelled_eq_some, findUp_eq_some hlimit hstop]
  constructor
  · rintro ⟨p, ⟨d, hd, rfl⟩, rfl⟩
    exact ⟨d, hd, rfl⟩
  · rintro ⟨d, hd, rfl⟩
    exact ⟨_, ⟨d, hd, rfl⟩, rfl⟩

section

variable (hpath : Spelling.isAbsolute path = true)
include hpath

theorem find_apply : find path (.str name) w = (locate w path name, w) := by
  unfold find
  rw [hpath]
  rfl

end

theorem nearest_eq {folder? : Option (Folder × Path)}
    (h : Folder.containing w.folders path = .ok folder?) : nearest w path name =
      spelled (findUp w.files name (Spelling.directory path) (folder?.map (·.2.toString))) := by
  unfold nearest
  rw [h]
  dsimp only [bind, Except.bind]
  generalize findUp w.files name (Spelling.directory path) (folder?.map (·.2.toString)) = found
  rcases found with e | found? <;> rfl

section

variable (hname : Path.Ordinary name) (htilde : name.toList.head? ≠ some '~')
include hname

theorem not_isAbsolute : Spelling.isAbsolute name = false := by
  obtain ⟨c, cs, hc, hslash⟩ := Path.head?_of_ordinary hname
  simp [Spelling.isAbsolute, hc, hslash]

include htilde

theorem resolve_ordinary : resolve w.home w.folders path name =
    (Folder.containing w.folders path).map fun found? =>
      found?.map fun found => (found.2.join (Path.parse name)).toString := by
  unfold resolve
  rw [if_neg htilde]
  simp only [not_isAbsolute hname, Bool.false_eq_true, if_false]

theorem locate_of_error {e : Fault} (h : Folder.containing w.folders path = .error e) :
    locate w path name = .error e := by
  unfold locate
  rw [resolve_ordinary hname htilde, h]
  rfl

theorem locate_of_none (h : Folder.containing w.folders path = .ok none) :
    locate w path name = spelled (findUp w.files name (Spelling.directory path) none) := by
  unfold locate
  rw [resolve_ordinary hname htilde, nearest_eq h, h, not_isAbsolute hname]
  dsimp only [Except.map, bind, Except.bind]
  rw [Option.map_none, Option.filter_none]
  rfl

theorem locate_of_some {f : Folder} (h : Folder.containing w.folders path = .ok (some (f, root))) :
    locate w path name =
      if Has w.files name root then .ok (some (root.join (Path.parse name)).toString)
      else spelled (findUp w.files name (Spelling.directory path) (some root.toString)) := by
  unfold locate
  rw [resolve_ordinary hname htilde, nearest_eq h, h, not_isAbsolute hname]
  dsimp only [Except.map, bind, Except.bind]
  rw [Option.map_some, Option.filter_some]
  by_cases hhas : Has w.files name root
  · rw [if_pos hhas, if_pos (Files.has_iff.2 hhas)]
    rfl
  · rw [if_neg hhas, if_neg (mt Files.has_iff.1 hhas)]
    rfl

end

theorem outside_findUp (files : Files) (path name : String) :
    Outside files path name (spelled (findUp files name (Spelling.directory path) none)) where
  found _ := spelled_findUp_eq_some (rfl : limit none = none) nofun
  missing := spelled_eq_none.trans (findUp_eq_none (rfl : limit none = none) nofun)
  refused _ := spelled_eq_error.trans (findUp_eq_error (rfl : limit none = none) nofun)

/-- How a search from a root of ordinary names on ends. -/
theorem inside_findUp {files : Files} (hname : Path.Ordinary name)
    (hordinary : ∀ n ∈ (directory path).names, Path.Ordinary n)
    (hroot : root.contains (directory path) = true) :
    Inside files path name root
      (if Has files name root then .ok (some (root.join (Path.parse name)).toString)
        else spelled (findUp files name (Spelling.directory path) (some root.toString))) := by
  have hlimit := limit_toString (Path.ordinary_of_contains hroot hordinary)
  have hstop : ∀ d, some root = some d → d.contains (directory path) = true := by
    rintro _ ⟨⟩
    exact hroot
  have hself : Between (some root) (directory path) root :=
    ⟨hroot, fun _ h => by cases h; exact Path.contains_self root⟩
  by_cases hhas : Has files name root
  · rw [if_pos hhas]
    have hbelow := below_join hname (Path.ordinary_of_contains hroot hordinary)
      (Path.contains_self root)
    refine ⟨fun file => ?_, ?_, fun e => ?_, ?_⟩
    · simp only [hhas, Except.ok.injEq, Option.some.injEq, true_and, not_true_eq_false, false_and,
        or_false]
      exact eq_comm
    · exact iff_of_false (by simp) fun h => hhas.not_lacks (h root hself)
    · exact iff_of_false nofun fun h => h.2.1 hhas
    · rintro _ ⟨⟩
      exact hbelow
  · rw [if_neg hhas]
    refine ⟨fun file => ?_, ?_, fun e => ?_, fun file hfile => ?_⟩
    · rw [spelled_findUp_eq_some hlimit hstop]
      simp only [directory, hhas, false_and, not_false_eq_true, true_and, false_or]
    · exact spelled_eq_none.trans (findUp_eq_none hlimit hstop)
    · rw [spelled_eq_error, findUp_eq_error hlimit hstop]
      simp only [directory, hhas, not_false_eq_true, true_and]
    · obtain ⟨d, hd, rfl⟩ := (spelled_findUp_eq_some hlimit hstop).1 hfile
      exact below_join hname (Path.ordinary_of_contains hd.member.above hordinary)
        (hd.member.below root rfl)

/-- With an ordinary name, a search for a path that is no folder itself stays in its folder. -/
theorem ignored_searched (w : World) (hpath : Spelling.isAbsolute path = true)
    (hname : Path.Ordinary name) (htilde : name.toList.head? ≠ some '~')
    (hroots : ∀ f ∈ w.folders, f.root? ≠ .ok (some (Path.parse path))) : Searched w path name where
  inside hfolders hcontained := by
    obtain ⟨found?, hfound⟩ := Folder.containing_orderly hfolders path
    obtain ⟨⟨f, root⟩, rfl⟩ :=
      Option.isSome_iff_exists.1 ((Folder.containing_isSome_iff hfound).2 hcontained)
    have hdeepest := Folder.containing_deepest hfound
    obtain ⟨f', hf', hroot⟩ := hdeepest.folder
    have hne : root ≠ Path.parse path := fun h => hroots f' hf' (h ▸ hroot)
    refine ⟨root, hdeepest, _, ?_, inside_findUp hname (fun n => Path.ordinary_of_mem_parse)
      (contains_directory hpath hdeepest.contains hne)⟩
    rw [find_apply hpath, locate_of_some hname htilde hfound]
  outside hfolders hcontained := by
    obtain ⟨found?, hfound⟩ := Folder.containing_orderly hfolders path
    rw [← Folder.containing_isSome_iff hfound, Option.not_isSome_iff_eq_none] at hcontained
    subst hcontained
    refine ⟨_, ?_, outside_findUp w.files path name⟩
    rw [find_apply hpath, locate_of_none hname htilde hfound]
  illegible hfolders := by
    rw [find_apply hpath,
      locate_of_error hname htilde (Folder.containing_of_not_legible hfolders)]

/-- In the inner one of two folders the outer one's ignore file is not found. -/
theorem ignored_searched_nested :
    let work : Folder := ⟨"file:///work", "work"⟩
    let app : Folder := ⟨"file:///work/app/", "app"⟩
    let w := fun folders =>
      ({ files := Files.write {} "/work/.prettierignore" (.file []), folders } : World)
    let run := fun folders => (find "/work/app//src/../a.js" (.str ".prettierignore") (w folders)).1
    run [] = .ok (some "/work/.prettierignore") ∧ run [work] = .ok (some "/work/.prettierignore") ∧
      run [work, app] = .ok none ∧
      Searched (w [work, app]) "/work/app//src/../a.js" ".prettierignore" :=
  ⟨by decide +kernel, by decide +kernel, by decide +kernel,
    ignored_searched _ (by decide) (by decide) (by decide)
      (List.forall_mem_cons.2 ⟨by decide +kernel, List.forall_mem_singleton.2 (by decide +kernel)⟩)⟩

/-- No directory has the name and no folder contains the path, but a folder has a URI that cannot be
read: the search ends with a fault instead of finding nothing. -/
theorem ignored_searched_illegible :
    let w : World := { folders := [⟨"file://[", "x"⟩] }
    (∀ f ∈ w.folders, f.root? ≠ .ok (some (Path.parse "/work/a.js"))) ∧
      ¬ Folder.Contained w.folders "/work/a.js" ∧
      (∀ d, Between none (directory "/work/a.js") d → Lacks w.files ".prettierignore" d) ∧
      find "/work/a.js" (.str ".prettierignore") w = (.error .malformedUri, w) := by
  intro w
  have hroot : Folder.root? ⟨"file://[", "x"⟩ = .error .malformedUri := by decide +kernel
  refine ⟨List.forall_mem_singleton.2 ?_, ?_, ?_, ?_⟩
  · rw [hroot]
    nofun
  · rintro ⟨f, hf, root, hf', -⟩
    rw [List.mem_singleton.1 hf, hroot] at hf'
    cases hf'
  · exact (findUp_eq_none (rfl : limit none = none) nofun).1 (by decide +kernel)
  · rw [find_apply (by decide), locate_of_error (by decide) (by decide)]
    decide +kernel

end FormatServer.IgnoreFile
