import FormatServer.Proofs.Workspace.Search
import FormatServer.Proofs.World.Orderly

/-!
# The candidates of a search

The modules that a search for a file looks at, in their order (`candidates`), and how a search along a
row of them ends: at the first entry that is not passed over (`search_settles`), or with nothing
(`search_none`). One that the settings name and the bundled one are required, which is to say that
they are not passed over.

What a candidate is depends on the world in which the search starts alone. A candidate that cannot be
told is an entry of the row too, with the fault in which telling it ends (`Untold`).
-/

set_option autoImplicit false

namespace FormatServer.Installation

variable {limits : Limits} {files : Files} {m : String}

/-! ## Candidates -/

/-- Where a candidate comes from, in the order in which they are looked at. -/
inductive Place where
  | named
  | nearby
  | global
  | bundled
  deriving DecidableEq, Repr

/-- The number of a place in the order. -/
def Place.rank : Place → Nat
  | named => 0
  | nearby => 1
  | global => 2
  | bundled => 3

structure Candidate where
  place : Place
  modulePath : String
  deriving DecidableEq, Repr

/-- A candidate that is not passed over. -/
def Candidate.required (c : Candidate) : Bool := c.place = .named || c.place = .bundled

/-- The module path that the settings name: an absolute one stands for itself where there is no
folder to resolve it against. -/
def namedPath (w : World) (path : String) : Json → Except Fault String
  | .str s =>
    (Workspace.resolve w.home w.folders path s).bind fun
      | some resolved => .ok resolved
      | none =>
        if Spelling.isAbsolute s then .ok s
        else .error (.failure (.unresolvedModule (Text.quoted s) path))
  | _ => .error .pathNotText

/-- The package manager that the client would name for a folder. -/
def namedManager? (w : World) (folderUri : String) : Option String :=
  match w.client.packageManager w.journal.sent folderUri with
  | .ok (.str s) => if s = "" then none else some s
  | _ => none

/-- The package manager for a file. -/
def managerFor (w : World) (path : String) (settings : Settings) : Except Fault Json :=
  match settings.packageManager with
  | some manager => .ok manager
  | none => (Folder.containing w.folders path).map fun
    | some (folder, _) => .str ((namedManager? w folder.uri).getD "npm")
    | none => .str "npm"

/-- The root that a package manager prints if it is run now. -/
def printedNow (w : World) (manager : String) (arguments : List String) (below : Option String) :
    Except Fault (Option String) :=
  match w.processes.reply w.processes.started (.manager manager arguments) with
  | .notStarted _ => .ok none
  | .malformed reason => .error (.commandMalformed reason)
  | .finished stdout _ exitCode => if exitCode = 0 then printedRoot stdout below else .ok none

/-- The global root of a package manager: the one that was remembered, or the one that it prints. -/
def rootOf (w : World) : Json → Except Fault (Option String)
  | .arr _ => .error .notAName
  | .obj _ => .error .notAName
  | .str manager =>
    match rootCommand? manager with
    | some (arguments, below) =>
      match w.globalRoots.lookup manager with
      | some root? => .ok root?
      | none => printedNow w manager arguments below
    | none => .ok none
  | _ => .ok none

/-- The global root for a file. -/
def rootFor (w : World) (path : String) (settings : Settings) : Except Fault (Option String) :=
  (managerFor w path settings).bind (rootOf w)

/-- The first of the directories from a file upwards that does not lack a local installation. -/
def NearestTold (files : Files) (path : String) (d : Path) : Prop :=
  ∃ nearer farther, (Path.parse (Spelling.directory path)).chain = nearer ++ d :: farther ∧
    ∀ d' ∈ nearer, Workspace.Lacks files localName d'

/-- The local installation nearest to a file exists at this path: all directories nearer to the file
lack one. -/
def Nearest (files : Files) (path m : String) : Prop :=
  ∃ d, NearestTold files path d ∧ Workspace.Has files localName d ∧
    m = (d.join (Path.parse localName)).toString

/-- The system refuses to say whether there is a local installation in a directory, and all those
nearer to the file lack one. -/
def RefusedNearby (files : Files) (path : String) : Prop :=
  ∃ d, NearestTold files path d ∧ Workspace.Refuses files localName d

def nearbyCandidates (w : World) (path : String) : List (Except Fault Candidate) :=
  if w.trusted && Spelling.isAbsolute path then
    match Workspace.findUp w.files localName (Spelling.directory path) none with
    | .ok p? => p?.toList.map fun p => .ok ⟨.nearby, p.toString⟩
    | .error e => [.error e]
  else []

def globalCandidates (w : World) (path : String) (settings : Settings) :
    List (Except Fault Candidate) :=
  if settings.resolveGlobalModules then
    match rootFor w path settings with
    | .ok root? => root?.toList.map fun root => .ok ⟨.global, Spelling.join root "prettier"⟩
    | .error e => [.error e]
  else []

def bundledCandidates (w : World) : List (Except Fault Candidate) :=
  match w.config.bundledPrettierPath with
  | .str s => if s = "" then [] else [.ok ⟨.bundled, s⟩]
  | v => if v.truthy then [.error .modulePathNotText] else []

/-- What a search looks at, in order, with the faults by which a candidate cannot be told. A path in
the settings leaves no other candidate. -/
def candidates (w : World) (path : String) (settings : Settings) : List (Except Fault Candidate) :=
  match settings.prettierPath with
  | some setting => [(namedPath w path setting).map (⟨.named, ·⟩)]
  | none => nearbyCandidates w path ++ globalCandidates w path settings ++ bundledCandidates w

/-- Why a candidate cannot be told. Beside a path that there is nothing to resolve against, these are
values that are no texts, folders without URIs, directories of which the system says nothing, a
package manager that it does not take as a command, and output that is not UTF-8. -/
inductive Untold (w : World) (path : String) (settings : Settings) : Fault → Prop
  | unresolved (s : String) : settings.prettierPath = some (.str s) →
      Workspace.resolve w.home w.folders path s = .ok none → Spelling.isAbsolute s = false →
      Untold w path settings (.failure (.unresolvedModule (Text.quoted s) path))
  | namedNotText (v : Json) : settings.prettierPath = some v → (∀ s, v ≠ .str s) →
      Untold w path settings .pathNotText
  | folderNotUri (f : Folder) : f ∈ w.folders → ¬ Uri.Parses f.uri →
      Untold w path settings .malformedUri
  | nearbyRefused : settings.prettierPath = none → w.trusted = true →
      Spelling.isAbsolute path = true → RefusedNearby w.files path →
      Untold w path settings .pathRefused
  | managerNotText (v : Json) : settings.packageManager = some v → (∀ s, v ≠ .str s) →
      Untold w path settings .notAName
  | commandMalformed (command : Command) (reason : String) :
      w.processes.reply w.processes.started command = .malformed reason →
      Untold w path settings (.commandMalformed reason)
  | outputNotText (command : Command) (stdout stderr : List UInt8) :
      w.processes.reply w.processes.started command = .finished stdout stderr 0 →
      Text.decode? stdout = none → Untold w path settings .undecodableOutput
  | bundledNotText : (∀ s, w.config.bundledPrettierPath ≠ .str s) →
      Untold w path settings .modulePathNotText

/-! ## The first one -/

/-- An entry of a row at which a search does not stop. -/
def PassedOver (limits : Limits) (files : Files) (x : Except Fault Candidate) : Prop :=
  ∃ c f, x = .ok c ∧ c.required = false ∧ Unusable limits files c.modulePath (.failure f)

/-- An entry at which a search stops with a fault. -/
inductive Stops (limits : Limits) (files : Files) : Except Fault Candidate → Fault → Prop
  | untold (e : Fault) : Stops limits files (.error e) e
  | required {c : Candidate} (f : Failure) : c.required = true →
      Unusable limits files c.modulePath (.failure f) → Stops limits files (.ok c) (.failure f)
  | overdeep {c : Candidate} (container : Json.Container) :
      Unusable limits files c.modulePath (.nestedTooDeep container) →
      Stops limits files (.ok c) (.nestedTooDeep container)

/-- A search along a row comes to an entry. -/
def Reaches (limits : Limits) (files : Files) (row : List (Except Fault Candidate))
    (x : Except Fault Candidate) : Prop :=
  ∃ before after, row = before ++ x :: after ∧ ∀ y ∈ before, PassedOver limits files y

/-- What the version that is read of a candidate comes to: nothing if it is passed over. -/
def Candidate.judged (c : Candidate) : Except Fault String → Except Fault (Option Found)
  | .ok version => .ok (some ⟨c.modulePath, version⟩)
  | .error (.failure f) => if c.required then .error (.failure f) else .ok none
  | .error e => .error e

/-- What looking at an entry comes to. -/
def tried (limits : Limits) (files : Files) : Except Fault Candidate → Except Fault (Option Found)
  | .error e => .error e
  | .ok c => c.judged (readVersion limits files c.modulePath)

/-- The first result, or the next one where nothing was found and nothing failed. -/
def orNext (r next : Except Fault (Option Found)) : Except Fault (Option Found) :=
  match r with
  | .ok none => next
  | r => r

/-- A search along a row. -/
def search (limits : Limits) (files : Files) (row : List (Except Fault Candidate)) :
    Except Fault (Option Found) :=
  row.foldr (fun x next => orNext (tried limits files x) next) (.ok none)

theorem orNext_of_ne {r : Except Fault (Option Found)} (h : r ≠ .ok none)
    (next : Except Fault (Option Found)) : orNext r next = r := by
  unfold orNext
  split
  · exact absurd rfl h
  · rfl

theorem orNext_none (r : Except Fault (Option Found)) : orNext r (.ok none) = r := by
  unfold orNext
  split <;> rfl

theorem orNext_none_iff {r next : Except Fault (Option Found)} :
    orNext r next = .ok none ↔ r = .ok none ∧ next = .ok none := by
  by_cases h : r = .ok none
  · simp [h, orNext]
  · simp [orNext_of_ne h, h]

theorem orNext_assoc (r r' r'' : Except Fault (Option Found)) :
    orNext (orNext r r') r'' = orNext r (orNext r' r'') := by
  by_cases h : r = .ok none
  · subst h
    rfl
  · rw [orNext_of_ne h, orNext_of_ne h, orNext_of_ne h]

/-- How a search ends at an entry. -/
inductive Settles (limits : Limits) (files : Files) :
    Except Fault Candidate → Except Fault (Option Found) → Prop
  | found {c : Candidate} {version : String} : Usable limits files ⟨c.modulePath, version⟩ →
      Settles limits files (.ok c) (.ok (some ⟨c.modulePath, version⟩))
  | stops {x : Except Fault Candidate} {e : Fault} : Stops limits files x e →
      Settles limits files x (.error e)

section
variable {x : Except Fault Candidate} {row : List (Except Fault Candidate)}

theorem reaches_cons_iff {y : Except Fault Candidate} :
    Reaches limits files (y :: row) x ↔
      x = y ∨ PassedOver limits files y ∧ Reaches limits files row x := by
  constructor
  · rintro ⟨before, after, hrow, hbefore⟩
    cases before with
    | nil =>
      cases hrow
      exact .inl rfl
    | cons z before =>
      cases hrow
      exact .inr ⟨hbefore _ (.head _), before, after, rfl, fun y hy => hbefore y (.tail _ hy)⟩
  · rintro (rfl | ⟨hy, before, after, rfl, hbefore⟩)
    · exact ⟨[], row, rfl, fun _ h => (nomatch h)⟩
    · refine ⟨y :: before, after, rfl, fun z hz => ?_⟩
      obtain rfl | hz := List.mem_cons.1 hz
      · exact hy
      · exact hbefore z hz

theorem passedOver_iff : PassedOver limits files x ↔ tried limits files x = .ok none := by
  cases x with
  | error e => exact ⟨fun ⟨_, _, h, _⟩ => (nomatch h), fun h => (nomatch h)⟩
  | ok c =>
    simp only [tried]
    constructor
    · rintro ⟨_, f, ⟨⟩, hrequired, hf⟩
      simp [readVersion_error_iff.2 hf, Candidate.judged, hrequired]
    · intro h
      unfold Candidate.judged at h
      split at h
      · cases h
      · next f hf =>
        split at h
        · cases h
        · next hrequired =>
          exact ⟨c, f, rfl, Bool.eq_false_iff.2 hrequired, readVersion_error_iff.1 hf⟩
      · cases h

theorem settles_iff {r : Except Fault (Option Found)} :
    Settles limits files x r ↔ tried limits files x = r ∧ r ≠ .ok none := by
  constructor
  · rintro (h | ⟨_ | ⟨f, hrequired, h⟩ | ⟨container, h⟩⟩)
    · simp [tried, readVersion_ok_iff.2 h, Candidate.judged]
    · exact ⟨rfl, fun h => (nomatch h)⟩
    · simp [tried, readVersion_error_iff.2 h, Candidate.judged, hrequired]
    · simp [tried, readVersion_error_iff.2 h, Candidate.judged]
  · rintro ⟨hx, hr⟩
    cases x with
    | error e => exact hx ▸ .stops (.untold e)
    | ok c =>
      simp only [tried] at hx
      cases h : readVersion limits files c.modulePath with
      | ok version =>
        rw [h] at hx
        exact hx ▸ .found (readVersion_ok_iff.1 h)
      | error e =>
        rw [h] at hx
        -- a refusal settles the search only if the candidate is required
        have refused {f : Failure} (hu : Unusable limits files c.modulePath (.failure f))
            (hx : (if c.required then .error (.failure f) else .ok none) = r) :
            Settles limits files (.ok c) r := by
          split at hx
          · next hrequired => exact hx ▸ .stops (.required f hrequired hu)
          · exact absurd hx.symm hr
        cases readVersion_error_iff.1 h with
        | unreadable => exact refused (readVersion_error_iff.1 h) hx
        | foreign => exact refused (readVersion_error_iff.1 h) hx
        | overdeep => exact hx ▸ .stops (.overdeep _ (readVersion_error_iff.1 h))

theorem search_settles {r : Except Fault (Option Found)} (hr : r ≠ .ok none) :
    search limits files row = r ↔ ∃ x, Reaches limits files row x ∧ Settles limits files x r := by
  induction row with
  | nil =>
    refine ⟨fun h => absurd h.symm hr, ?_⟩
    rintro ⟨x, ⟨before, after, h, -⟩, -⟩
    simp at h
  | cons x row ih =>
    simp only [reaches_cons_iff, or_and_right, exists_or, exists_eq_left, and_assoc,
      exists_and_left, ← ih, passedOver_iff]
    rw [settles_iff]
    show orNext (tried limits files x) (search limits files row) = r ↔ _
    by_cases h : tried limits files x = .ok none
    · simp [h, orNext, hr.symm]
    · simp [h, orNext_of_ne h, hr]

theorem search_none : search limits files row = .ok none ↔ ∀ x ∈ row, PassedOver limits files x := by
  induction row with
  | nil => simp [search]
  | cons x row ih =>
    rw [List.forall_mem_cons, ← ih, passedOver_iff]
    exact orNext_none_iff

theorem search_singleton : search limits files [x] = tried limits files x := orNext_none _

theorem search_append (row row' : List (Except Fault Candidate)) :
    search limits files (row ++ row') =
      orNext (search limits files row) (search limits files row') := by
  induction row with
  | nil => rfl
  | cons x row ih =>
    show orNext _ (search limits files (row ++ row')) = orNext (orNext _ (search limits files row)) _
    rw [ih, orNext_assoc]

end

/-! ## Which candidates there are -/

section
variable {w : World} {path : String} {settings : Settings}

theorem findUp_unlimited (files : Files) (name start : String) :
    Workspace.findUp files name start none =
      Workspace.firstExisting files ((Path.parse start).chain.map (·.join (Path.parse name))) := by
  simp only [Workspace.findUp, Option.filter_none, Option.map_none, Workspace.searched_none]

theorem nearest_iff {path m : String} : Nearest files path m ↔
    ∃ p, Workspace.findUp files localName (Spelling.directory path) none = .ok (some p) ∧
      m = p.toString := by
  simp only [findUp_unlimited, Workspace.firstExisting_map_eq_some, Nearest, NearestTold]
  constructor
  · rintro ⟨d, htold, hd, rfl⟩
    exact ⟨_, ⟨d, htold, hd, rfl⟩, rfl⟩
  · rintro ⟨_, ⟨d, htold, hd, rfl⟩, rfl⟩
    exact ⟨d, htold, hd, rfl⟩

theorem refusedNearby_iff {path : String} {e : Fault} :
    Workspace.findUp files localName (Spelling.directory path) none = .error e ↔
      e = .pathRefused ∧ RefusedNearby files path := by
  rw [findUp_unlimited]
  exact Workspace.firstExisting_map_eq_error

theorem mem_nearbyCandidates {x : Except Fault Candidate} : x ∈ nearbyCandidates w path ↔
    w.trusted = true ∧ Spelling.isAbsolute path = true ∧
      ((∃ m, Nearest w.files path m ∧ x = .ok ⟨.nearby, m⟩) ∨
        RefusedNearby w.files path ∧ x = .error .pathRefused) := by
  unfold nearbyCandidates
  split
  · next h =>
    rw [Bool.and_eq_true] at h
    simp only [h, true_and, nearest_iff]
    split
    · next p? hfind =>
      have htold : ¬ RefusedNearby w.files path := fun hrefused => by
        cases hfind.symm.trans (refusedNearby_iff.2 ⟨rfl, hrefused⟩)
      cases p? <;> simp [hfind, htold]
    · next e hfind =>
      obtain ⟨rfl, hrefused⟩ := refusedNearby_iff.1 hfind
      simp [hfind, hrefused]
  · next h =>
    rw [Bool.and_eq_true] at h
    simp only [List.not_mem_nil, false_iff]
    exact fun ⟨ht, ha, _⟩ => h ⟨ht, ha⟩

theorem mem_globalCandidates {x : Except Fault Candidate} : x ∈ globalCandidates w path settings ↔
    settings.resolveGlobalModules = true ∧
      ((∃ root, rootFor w path settings = .ok (some root) ∧
        x = .ok ⟨.global, Spelling.join root "prettier"⟩) ∨
      ∃ e, rootFor w path settings = .error e ∧ x = .error e) := by
  unfold globalCandidates
  split
  · next h =>
    cases hroot : rootFor w path settings with
    | ok root? => cases root? <;> simp [h, eq_comm]
    | error e => simp [h]
  · next h => simp [h]

theorem mem_bundledCandidates {x : Except Fault Candidate} : x ∈ bundledCandidates w ↔
    (∃ m, w.config.bundledPrettierPath = .str m ∧ m ≠ "" ∧ x = .ok ⟨.bundled, m⟩) ∨
      (w.config.bundledPrettierPath.truthy = true ∧ (∀ m, w.config.bundledPrettierPath ≠ .str m) ∧
        x = .error .modulePathNotText) := by
  unfold bundledCandidates
  cases w.config.bundledPrettierPath with
  | str m =>
    dsimp only
    split
    · next h => simp [h]
    · next h => simp [h]
  | _ =>
    dsimp only
    split
    · next h => simp [h]
    · next h => simp [h]

/-- Without a path in the settings there are three kinds of candidates. -/
theorem mem_candidates (h : settings.prettierPath = none) {x : Except Fault Candidate} :
    x ∈ candidates w path settings ↔ x ∈ nearbyCandidates w path ∨
      x ∈ globalCandidates w path settings ∨ x ∈ bundledCandidates w := by
  simp only [candidates, h, List.mem_append, or_assoc]

theorem rootOf_untold {manager : String} {e : Fault} (h : rootOf w (.str manager) = .error e) :
    Untold w path settings e := by
  simp only [rootOf] at h
  split at h
  · next arguments below hcommand =>
    split at h
    · cases h
    · unfold printedNow at h
      split at h
      · cases h
      · next reason hreply =>
        cases h
        exact .commandMalformed _ reason hreply
      · next stdout stderr exitCode hreply =>
        split at h
        · next hexit =>
          unfold printedRoot at h
          split at h
          · cases h
          · cases hdecode : Text.decode? stdout with
            | some cs => rw [hdecode] at h; cases h
            | none =>
              rw [hdecode] at h
              cases h
              exact .outputNotText _ stdout stderr (hexit ▸ hreply) hdecode
        · cases h
  · cases h

theorem rootFor_untold {e : Fault} (h : rootFor w path settings = .error e) :
    Untold w path settings e := by
  unfold rootFor managerFor at h
  cases hmanager : settings.packageManager with
  | some v =>
    rw [hmanager] at h
    cases v with
    | str manager => exact rootOf_untold h
    | arr _ | obj _ =>
      cases h
      exact .managerNotText _ hmanager (by simp)
    | _ => cases h
  | none =>
    rw [hmanager] at h
    cases hfolder : Folder.containing w.folders path with
    | error e' =>
      rw [hfolder] at h
      cases h
      obtain ⟨rfl, f, hf, hnot⟩ := Folder.containing_error hfolder
      exact .folderNotUri f hf hnot
    | ok found? =>
      rw [hfolder] at h
      cases found? with
      | none => exact rootOf_untold (show rootOf w (.str "npm") = .error e from h)
      | some found =>
        exact rootOf_untold
          (show rootOf w (.str ((namedManager? w found.1.uri).getD "npm")) = .error e from h)

theorem namedPath_untold {setting : Json} (hpath : settings.prettierPath = some setting) {e : Fault}
    (h : namedPath w path setting = .error e) : Untold w path settings e := by
  cases setting with
  | str s =>
    simp only [namedPath] at h
    cases hresolve : Workspace.resolve w.home w.folders path s with
    | error e' =>
      rw [hresolve] at h
      cases h
      obtain ⟨rfl, f, hf, hnot⟩ := Workspace.resolve_error hresolve
      exact .folderNotUri f hf hnot
    | ok resolved? =>
      rw [hresolve] at h
      cases resolved? with
      | some resolved => cases h
      | none =>
        simp only [Except.bind] at h
        split at h
        · cases h
        · next hrelative =>
          cases h
          exact .unresolved s hpath hresolve (by simpa using hrelative)
  | _ =>
    cases h
    exact .namedNotText _ hpath (by simp)

theorem untold_of_mem {e : Fault} (h : .error e ∈ candidates w path settings) :
    Untold w path settings e := by
  cases hpath : settings.prettierPath with
  | some setting =>
    simp only [candidates, hpath, List.mem_singleton] at h
    cases hnamed : namedPath w path setting with
    | ok m => rw [hnamed] at h; cases h
    | error e' =>
      rw [hnamed] at h
      cases h
      exact namedPath_untold hpath hnamed
  | none =>
    obtain h | h | h := (mem_candidates hpath).1 h
    · obtain ⟨htrusted, habsolute, ⟨m, -, h⟩ | ⟨hrefused, h⟩⟩ := mem_nearbyCandidates.1 h
      · cases h
      · cases h
        exact .nearbyRefused hpath htrusted habsolute hrefused
    · obtain ⟨-, ⟨root, -, h⟩ | ⟨_, hroot, ⟨⟩⟩⟩ := mem_globalCandidates.1 h
      · cases h
      · exact rootFor_untold hroot
    · obtain ⟨m, -, -, h⟩ | ⟨-, hnot, h⟩ := mem_bundledCandidates.1 h
      · cases h
      · cases h
        exact .bundledNotText hnot

theorem candidates_of_named {setting : Json} (h : settings.prettierPath = some setting) :
    candidates w path settings = [(namedPath w path setting).map (⟨.named, ·⟩)] := by
  simp only [candidates, h]

/-- Beside a path in the settings there is no candidate of another place. -/
theorem place_of_named {setting : Json} (h : settings.prettierPath = some setting) {c : Candidate}
    (hc : .ok c ∈ candidates w path settings) : c.place = .named := by
  rw [candidates_of_named h, List.mem_singleton] at hc
  cases hpath : namedPath w path setting with
  | error e => rw [hpath] at hc; cases hc
  | ok m => rw [hpath] at hc; cases hc; rfl

theorem unnamed_of_place {c : Candidate} (hplace : c.place ≠ .named)
    (hc : .ok c ∈ candidates w path settings) : settings.prettierPath = none := by
  cases h : settings.prettierPath with
  | none => rfl
  | some setting => exact absurd (place_of_named h hc) hplace

theorem mem_candidates_of_place {c : Candidate} (hplace : c.place ≠ .named) :
    .ok c ∈ candidates w path settings ↔ settings.prettierPath = none ∧
      (.ok c ∈ nearbyCandidates w path ∨ .ok c ∈ globalCandidates w path settings ∨
        .ok c ∈ bundledCandidates w) :=
  ⟨fun h => ⟨unnamed_of_place hplace h, (mem_candidates (unnamed_of_place hplace h)).1 h⟩,
    fun ⟨hunnamed, h⟩ => (mem_candidates hunnamed).2 h⟩

theorem candidates_order : ((candidates w path settings).filterMap Except.toOption).Pairwise
    fun a b => a.place.rank < b.place.rank := by
  have hnearby : (nearbyCandidates w path).filterMap Except.toOption = [] ∨
      ∃ m, (nearbyCandidates w path).filterMap Except.toOption = [⟨.nearby, m⟩] := by
    unfold nearbyCandidates
    split
    · split
      · next p? _ =>
        cases p? with
        | none => exact .inl rfl
        | some p => exact .inr ⟨p.toString, rfl⟩
      · exact .inl rfl
    · exact .inl rfl
  have hglobal : (globalCandidates w path settings).filterMap Except.toOption = [] ∨
      ∃ m, (globalCandidates w path settings).filterMap Except.toOption = [⟨.global, m⟩] := by
    unfold globalCandidates
    split
    · split
      · next root? _ =>
        cases root? with
        | none => exact .inl rfl
        | some root => exact .inr ⟨_, rfl⟩
      · exact .inl rfl
    · exact .inl rfl
  have hbundled : (bundledCandidates w).filterMap Except.toOption = [] ∨
      ∃ m, (bundledCandidates w).filterMap Except.toOption = [⟨.bundled, m⟩] := by
    unfold bundledCandidates
    split
    · split
      · exact .inl rfl
      · exact .inr ⟨_, rfl⟩
    · split <;> exact .inl rfl
  unfold candidates
  split
  · next setting _ =>
    cases namedPath w path setting with
    | error e => exact .nil
    | ok m => exact List.pairwise_singleton _ _
  · rw [List.filterMap_append, List.filterMap_append]
    obtain h | ⟨m, h⟩ := hnearby <;> obtain h' | ⟨m', h'⟩ := hglobal <;>
      obtain h'' | ⟨m'', h''⟩ := hbundled <;> simp [h, h', h'', Place.rank]

/-- All candidates are passed over only where none is required. -/
theorem bare_of_passedOver (h : ∀ x ∈ candidates w path settings, PassedOver w.limits w.files x) :
    settings.prettierPath = none ∧ w.config.bundledPrettierPath.truthy = false := by
  have not_required : ∀ c, .ok c ∈ candidates w path settings → c.required = false := by
    intro c hc
    obtain ⟨_, _, ⟨⟩, hrequired, -⟩ := h _ hc
    exact hrequired
  have no_fault : ∀ e, .error e ∉ candidates w path settings := by
    intro e he
    obtain ⟨_, _, h, -⟩ := h _ he
    cases h
  cases hpath : settings.prettierPath with
  | some setting =>
    have hmem := List.mem_singleton_self ((namedPath w path setting).map (Candidate.mk .named))
    rw [← candidates_of_named hpath] at hmem
    cases hnamed : namedPath w path setting with
    | error e =>
      rw [hnamed] at hmem
      exact absurd hmem (no_fault e)
    | ok m =>
      rw [hnamed] at hmem
      cases not_required _ hmem
  | none =>
    refine ⟨rfl, ?_⟩
    rw [Bool.eq_false_iff]
    intro htruthy
    have mem : ∀ x ∈ bundledCandidates w, x ∈ candidates w path settings := fun x hx =>
      (mem_candidates hpath).2 (.inr (.inr hx))
    by_cases hstr : ∃ m, w.config.bundledPrettierPath = .str m
    · obtain ⟨m, hm⟩ := hstr
      have hne : m ≠ "" := by
        rintro rfl
        rw [hm] at htruthy
        cases htruthy
      cases not_required _ (mem _ (mem_bundledCandidates.2 (.inl ⟨m, hm, hne, rfl⟩)))
    · rw [not_exists] at hstr
      exact no_fault _ (mem _ (mem_bundledCandidates.2 (.inr ⟨htruthy, hstr, rfl⟩)))

theorem Reaches.mem {row : List (Except Fault Candidate)} {x : Except Fault Candidate}
    (h : Reaches limits files row x) : x ∈ row := by
  obtain ⟨before, after, rfl, -⟩ := h
  simp

theorem stage_of_stops {x : Except Fault Candidate} (hx : x ∈ candidates w path settings)
    {f : Failure} (h : Stops w.limits w.files x (.failure f)) : f.stage = .module := by
  cases h with
  | untold =>
    cases untold_of_mem hx
    rfl
  | required _ _ h => cases h <;> rfl

end

end FormatServer.Installation
