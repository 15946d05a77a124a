import FormatServer.Proofs.Installation.Candidates

/-!
# The choice of a module

A search finds the first of its candidates that is usable, where one that the settings name and the
bundled one are not passed over (`Chosen`). `find_chosen` says so of every search, in every world.

What a search does on its way (records, a question to the client, the run of a package manager) makes
no difference to what it looks at later: each action comes to a search along a part of the row that
the first world has (`localModule_search`, `globalModule_search`, `bundledModule_search`).
-/

set_option autoImplicit false

namespace FormatServer.Installation

open World Act

variable {m : String}

/-! ## Single actions -/

section
variable {w : World} {path : String} {settings : Settings}

/-- The worlds differ in what has been logged only. -/
def Logged (w w' : World) : Prop :=
  ∃ records, w' = { w with journal := { w.journal with records } }

theorem Logged.refl (w : World) : Logged w w := ⟨w.journal.records, rfl⟩

theorem load_apply (m : String) (w : World) :
    load m w = ((readVersion w.limits w.files m).map (Found.mk m), w) := by
  unfold load
  rw [bind_ok (rfl : (get : Act World World) w = (.ok w, w)), bind_apply,
    ofExcept_apply]
  cases readVersion w.limits w.files m <;> rfl

theorem tryLoad_tried (place : Place) (m skipping : String)
    (h : (⟨place, m⟩ : Candidate).required = false) (w : World) :
    (tryLoad m skipping w).1 = tried w.limits w.files (.ok ⟨place, m⟩) ∧
      Logged w (tryLoad m skipping w).2 := by
  unfold tryLoad
  have hrecover : Act.recover .module (load m) w =
      (settled .module ((readVersion w.limits w.files m).map (Found.mk m)), w) := by
    rw [recover_apply, load_apply]
  simp only [tried, Candidate.judged, h]
  cases hr : readVersion w.limits w.files m with
  | ok version =>
    rw [hr] at hrecover
    rw [bind_ok hrecover]
    exact ⟨rfl, .refl w⟩
  | error e =>
    rw [hr] at hrecover
    cases readVersion_error_iff.1 hr with
    | unreadable =>
      rw [bind_ok hrecover]
      exact ⟨rfl, _, rfl⟩
    | foreign =>
      rw [bind_ok hrecover]
      exact ⟨rfl, _, rfl⟩
    | overdeep =>
      rw [bind_error hrecover]
      exact ⟨rfl, .refl w⟩

/-- A required candidate is loaded, or the search fails. -/
theorem load_tried (place : Place) (m : String) (h : (⟨place, m⟩ : Candidate).required = true)
    (w : World) : ((do return some (← load m)) w : Except Fault (Option Found) × World).1 =
      tried w.limits w.files (.ok ⟨place, m⟩) := by
  rw [bind_apply, load_apply]
  simp only [tried, Candidate.judged, h]
  cases hr : readVersion w.limits w.files m with
  | ok version => rfl
  | error e => cases readVersion_error_iff.1 hr <;> rfl

theorem explicitPath_apply (path : String) (setting : Json) (w : World) :
    explicitPath path setting w = (namedPath w path setting, w) := by
  unfold explicitPath namedPath
  cases setting with
  | str s =>
    dsimp only
    rw [bind_ok (rfl : (get : Act World World) w = (.ok w, w)), bind_apply,
      ofExcept_apply]
    cases Workspace.resolve w.home w.folders path s with
    | error e => rfl
    | ok resolved? =>
      cases resolved? with
      | some resolved => rfl
      | none =>
        dsimp only [Except.bind]
        split <;> rfl
  | _ => rfl

theorem localModule_search (path : String) (w : World) :
    (localModule path w).1 = search w.limits w.files (nearbyCandidates w path) ∧
      Logged w (localModule path w).2 := by
  unfold localModule nearbyCandidates
  rw [bind_ok (rfl : (get : Act World World) w = (.ok w, w))]
  split
  · rw [bind_apply, ofExcept_apply]
    cases Workspace.findUp w.files localName (Spelling.directory path) none with
    | error e => exact ⟨rfl, .refl w⟩
    | ok p? =>
      cases p? with
      | none => exact ⟨rfl, .refl w⟩
      | some p =>
        obtain ⟨h, hlogged⟩ := tryLoad_tried .nearby p.toString "Skipping local module: " rfl w
        exact ⟨h.trans search_singleton.symm, hlogged⟩
  · exact ⟨rfl, .refl w⟩

theorem bundledModule_search (w : World) :
    (bundledModule w).1 = search w.limits w.files (bundledCandidates w) := by
  unfold bundledModule bundledCandidates
  rw [bind_ok (rfl : (get : Act World World) w = (.ok w, w))]
  cases w.config.bundledPrettierPath with
  | str s =>
    dsimp only
    split
    · rfl
    · rw [search_singleton]
      exact load_tried .bundled s rfl w
  | _ =>
    dsimp only
    split <;> rfl

/-! ## The global root -/

theorem askPackageManager_apply (folderUri : String) (w : World) :
    (askPackageManager folderUri w).1 = .ok (namedManager? w folderUri) ∧
      ∃ journal, (askPackageManager folderUri w).2 = { w with journal } := by
  unfold askPackageManager namedManager?
  rw [bind_ok (rfl : (get : Act World World) w = (.ok w, w)),
    bind_ok (rfl : send (.askPackageManager folderUri) w = (.ok (), _))]
  cases w.client.packageManager w.journal.sent folderUri with
  | error reason => exact ⟨rfl, _, rfl⟩
  | ok answer => cases answer <;> exact ⟨rfl, _, rfl⟩

theorem packageManagerFor_apply (path : String) (settings : Settings) (w : World) :
    (packageManagerFor path settings w).1 = managerFor w path settings ∧
      ∃ journal, (packageManagerFor path settings w).2 = { w with journal } := by
  unfold packageManagerFor managerFor
  cases settings.packageManager with
  | some manager => exact ⟨rfl, w.journal, rfl⟩
  | none =>
    dsimp only
    rw [bind_ok (rfl : (get : Act World World) w = (.ok w, w)), bind_apply,
      ofExcept_apply]
    cases Folder.containing w.folders path with
    | error e => exact ⟨rfl, w.journal, rfl⟩
    | ok found? =>
      cases found? with
      | none => exact ⟨rfl, w.journal, rfl⟩
      | some found =>
        obtain ⟨h, hjournal⟩ := askPackageManager_apply found.1.uri w
        dsimp only
        rw [bind_ok (Prod.ext h rfl)]
        exact ⟨rfl, hjournal⟩

theorem askRoot_fst (manager : String) (arguments : List String) (below : Option String) (w : World) :
    (askRoot manager arguments below w).1 = printedNow w manager arguments below := by
  unfold askRoot printedNow
  rw [bind_ok (rfl : start (.manager manager arguments) none w = (.ok _, _))]
  cases w.processes.reply w.processes.started (.manager manager arguments) with
  | notStarted reason => rfl
  | malformed reason => rfl
  | finished stdout stderr exitCode =>
    dsimp only
    split
    · cases printedRoot stdout below with
      | error e => rfl
      | ok root? => cases root? <;> rfl
    · rfl

theorem globalRoot_fst (manager : Json) (w : World) : (globalRoot manager w).1 = rootOf w manager := by
  unfold globalRoot rootOf
  cases manager with
  | str name =>
    dsimp only
    cases rootCommand? name with
    | none => rfl
    | some command =>
      obtain ⟨arguments, below⟩ := command
      simp only [Option.map_some]
      unfold knownRoot
      rw [bind_ok (rfl : (get : Act World World) w = (.ok w, w))]
      cases w.globalRoots.lookup name with
      | some root? => rfl
      | none =>
        dsimp only
        rw [bind_apply, ← askRoot_fst name arguments below w]
        rcases askRoot name arguments below w with ⟨r, t⟩
        cases r <;> rfl
  | _ => rfl

theorem globalModule_search (path : String) (settings : Settings) (w : World) :
    (globalModule path settings w).1 = search w.limits w.files (globalCandidates w path settings) := by
  unfold globalModule globalCandidates rootFor
  split
  · obtain ⟨hmanager, journal, hjournal⟩ := packageManagerFor_apply path settings w
    rw [← hmanager]
    rcases hw : packageManagerFor path settings w with ⟨r, t⟩
    rw [hw] at hjournal
    obtain rfl : t = { w with journal } := hjournal
    cases r with
    | error e =>
      rw [bind_error hw]
      rfl
    | ok manager =>
      have hframe := globalRoot_frame (M := fun _ => True) (L := fun _ => True)
        ⟨fun _ => trivial, fun _ _ _ _ => trivial⟩ manager { w with journal }
      have hroot : rootOf w manager = (globalRoot manager { w with journal }).1 :=
        (globalRoot_fst manager { w with journal }).symm
      rw [bind_ok hw, bind_apply]
      simp only [Except.bind, hroot]
      revert hframe
      rcases globalRoot manager { w with journal } with ⟨r, u⟩
      intro hframe
      cases r with
      | error e => rfl
      | ok root? =>
        cases root? with
        | none => rfl
        | some root =>
          refine (tryLoad_tried .global _ _ rfl u).1.trans ?_
          rw [hframe.files, hframe.limits]
          exact search_singleton.symm
  · rfl

/-! ## The search -/

theorem orElse_fst (x y : Act World (Option Found)) (w : World) :
    ((do
        match ← x with
        | some found => return some found
        | none => y) w : Except Fault (Option Found) × World).1 = orNext (x w).1 (y (x w).2).1 := by
  rw [bind_apply]
  rcases x w with ⟨r, t⟩
  cases r with
  | error e => rfl
  | ok found? => cases found? <;> rfl

theorem find_search (path : String) (settings : Settings) (w : World) :
    (find path settings w).1 = search w.limits w.files (candidates w path settings) := by
  unfold find candidates
  cases settings.prettierPath with
  | some setting =>
    dsimp only
    rw [search_singleton, bind_apply, explicitPath_apply]
    cases namedPath w path setting with
    | error e => rfl
    | ok m => exact load_tried .named m rfl w
  | none =>
    obtain ⟨hnearby, records, hlogged⟩ := localModule_search path w
    rw [search_append, search_append, orNext_assoc, ← hnearby]
    refine (orElse_fst (localModule path) _ w).trans (congrArg _ ?_)
    refine (orElse_fst (globalModule path settings) bundledModule _).trans ?_
    rw [hlogged, globalModule_search, bundledModule_search]
    let logged : World := { w with journal := { w.journal with records } }
    have hframe : World.Frame (fun _ => True) (fun _ => True) logged
        (globalModule path settings logged).2 :=
      globalModule_frame (fun _ => ⟨fun _ => trivial, fun _ _ _ _ => trivial⟩) logged
    rw [hframe.files, hframe.limits]
    unfold bundledCandidates
    rw [hframe.config]
    rfl

end

/-- A search fails only to find a module. -/
theorem find_failed {path : String} {settings : Settings} {w : World} {f : Failure}
    (h : (find path settings w).1 = .error (.failure f)) : f.stage = .module := by
  rw [find_search, search_settles (by simp)] at h
  obtain ⟨x, hx, ⟨⟩ | ⟨hstops⟩⟩ := h
  exact stage_of_stops hx.mem hstops

/-! ## The engine -/

section
variable {path : String} {settings : Settings} {w v : World}

theorem engine?_none (h : find path settings w = (.ok none, v)) :
    engine? path settings w = (.ok none, v) := by
  unfold engine?
  rw [bind_ok h]
  rfl

theorem engine?_error {f : Fault} (h : find path settings w = (.error f, v)) :
    engine? path settings w = (.error f, v) := by
  unfold engine?
  rw [bind_error h]

/-- With a module there is an engine that runs it. -/
theorem engine?_some {found : Found} (h : find path settings w = (.ok (some found), v)) :
    ∃ e u, engine? path settings w = (.ok (some e), u) ∧ e.modulePath = found.modulePath := by
  unfold engine?
  rw [bind_ok h]
  dsimp only
  rw [bind_ok (rfl : (get : Act World World) v = (.ok v, v))]
  cases he : v.engines.find? (·.modulePath = found.modulePath) with
  | some e => exact ⟨e, v, rfl, by simpa using List.find?_some he⟩
  | none => exact ⟨_, _, rfl, rfl⟩

/-- Looking for an engine leaves the folders as they are, and what a path in the settings is resolved
against. -/
theorem engine?_frame (path : String) (settings : Settings) (w : World) :
    World.Frame (fun _ => True) (fun _ => True) w (engine? path settings w).2 :=
  (engine_runs World.Frame.moving World.Frame.weaken (P := fun _ => True)
    ⟨find_frame (fun _ _ => ⟨fun _ => trivial, fun _ _ _ _ => trivial⟩) w,
      fun _ _ _ _ => trivial⟩).moves

end

/-! ## The choice -/

/-- A search comes to the first candidate that is usable. -/
structure Chosen (w : World) (path : String) (settings : Settings)
    (result : Except Fault (Option Found)) : Prop where
  /-- A path in the settings leaves no other candidate. -/
  named : ∀ setting, settings.prettierPath = some setting →
    candidates w path settings = [(namedPath w path setting).map (⟨.named, ·⟩)]
  /-- The nearest local installation is one in a trusted workspace. -/
  nearby : ∀ m, .ok ⟨.nearby, m⟩ ∈ candidates w path settings ↔ settings.prettierPath = none ∧
    w.trusted = true ∧ Spelling.isAbsolute path = true ∧ Nearest w.files path m
  /-- The global one is if the settings ask for it and there is a root. -/
  global : ∀ m, .ok ⟨.global, m⟩ ∈ candidates w path settings ↔ settings.prettierPath = none ∧
    settings.resolveGlobalModules = true ∧
    ∃ root, rootFor w path settings = .ok (some root) ∧ m = Spelling.join root "prettier"
  bundled : ∀ m, .ok ⟨.bundled, m⟩ ∈ candidates w path settings ↔ settings.prettierPath = none ∧
    w.config.bundledPrettierPath = .str m ∧ m ≠ ""
  order : ((candidates w path settings).filterMap Except.toOption).Pairwise fun a b =>
    a.place.rank < b.place.rank
  /-- The system refuses to say where the nearest one is. -/
  refused : .error .pathRefused ∈ candidates w path settings ↔ settings.prettierPath = none ∧
    w.trusted = true ∧ Spelling.isAbsolute path = true ∧ RefusedNearby w.files path
  untold : ∀ e, .error e ∈ candidates w path settings → Untold w path settings e
  /-- What is found is the first usable candidate, with the version of its manifest. -/
  found_iff : ∀ found, result = .ok (some found) ↔
    ∃ c, Reaches w.limits w.files (candidates w path settings) (.ok c) ∧
      c.modulePath = found.modulePath ∧ Usable w.limits w.files found
  none_iff : result = .ok none ↔ ∀ x ∈ candidates w path settings, PassedOver w.limits w.files x
  stops_iff : ∀ e, result = .error e ↔
    ∃ x, Reaches w.limits w.files (candidates w path settings) x ∧ Stops w.limits w.files x e
  /-- Nothing is found only where neither the settings nor the configuration name a module. -/
  bare : result = .ok none →
    settings.prettierPath = none ∧ w.config.bundledPrettierPath.truthy = false
  /-- A failure is one to find a module. -/
  failed : ∀ f, result = .error (.failure f) → f.stage = .module

/-- Every search finds the first of its candidates that is usable, or says why there is none. -/
theorem find_chosen (path : String) (settings : Settings) (w : World) :
    Chosen w path settings (find path settings w).1 := by
  refine ⟨fun _ => candidates_of_named, fun m => ?nearby, fun m => ?global, fun m => ?bundled,
    candidates_order, ⟨fun h => ?refused, ?nearbyRefused⟩, fun _ => untold_of_mem, fun found => ?found,
    find_search path settings w ▸ search_none, fun e => ?stops,
    fun h => bare_of_passedOver (search_none.1 (find_search path settings w ▸ h)),
    fun f => find_failed⟩
  case nearby | global | bundled =>
    rw [mem_candidates_of_place (by simp), mem_nearbyCandidates, mem_globalCandidates,
      mem_bundledCandidates]
    simp
  case refused =>
    cases untold_of_mem h with
    | nearbyRefused hpath htrusted habsolute hrefused =>
      exact ⟨hpath, htrusted, habsolute, hrefused⟩
  case nearbyRefused =>
    rintro ⟨hpath, htrusted, habsolute, hrefused⟩
    exact (mem_candidates hpath).2
      (.inl (mem_nearbyCandidates.2 ⟨htrusted, habsolute, .inr ⟨hrefused, rfl⟩⟩))
  case found =>
    rw [find_search, search_settles (by simp)]
    constructor
    · rintro ⟨_, hx, ⟨h⟩⟩
      exact ⟨_, hx, rfl, h⟩
    · rintro ⟨c, hx, hc, h⟩
      obtain ⟨m, version⟩ := found
      obtain rfl : c.modulePath = m := hc
      exact ⟨_, hx, .found h⟩
  case stops =>
    rw [find_search, search_settles (by simp)]
    refine exists_congr fun x => and_congr_right fun _ => ⟨?_, .stops⟩
    rintro ⟨⟩
    assumption

end FormatServer.Installation
