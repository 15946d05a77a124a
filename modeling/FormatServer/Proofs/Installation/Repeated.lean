import FormatServer.Proofs.Installation.Choice

/-!
# Looking for a module twice

A search that asks a package manager for its root leaves the answer in the world, be it a root or
none (`globalRoot_remembered`), and one that finds an engine leaves it among the engines. So a second
search for the same file ends as the first one did (`find_again`), and with the same engine
(`engine?_again`), as long as the client names the same package manager.
-/

set_option autoImplicit false

namespace FormatServer.Installation

open World Act

variable {w v u : World} {path : String} {settings : Settings}

/-- What the first search asked the client it would be told once more. -/
def Consistent (w v : World) : Prop :=
  ∀ folderUri, v.journal.sent = w.journal.sent ++ [.askPackageManager folderUri] →
    w.client.packageManager v.journal.sent folderUri =
      w.client.packageManager w.journal.sent folderUri

/-- Between two searches nothing has changed that a search reads, and nothing has been sent. -/
structure Revisited (v u : World) : Prop where
  given : u.given = v.given
  globalRoots : u.globalRoots = v.globalRoots
  sent : u.journal.sent = v.journal.sent

/-! ## What a search leaves -/

theorem Logged.moving : Moving Logged where
  refl := Logged.refl
  trans := by
    rintro w _ _ ⟨records, rfl⟩ ⟨records', rfl⟩
    exact ⟨records', rfl⟩

theorem logs_logged : Logs Logged := ⟨Logged.moving, fun _ _ _ _ => ⟨_, rfl⟩⟩

/-- Package managers are asked without a trace in what is remembered. -/
theorem logs_globalRoots : Logs fun w w' => w'.globalRoots = w.globalRoots :=
  ⟨⟨fun _ => rfl, fun h h' => h'.trans h⟩, fun _ _ _ _ => rfl⟩

theorem logs_sent : Logs fun w w' => w'.journal.sent = w.journal.sent :=
  ⟨⟨fun _ => rfl, fun h h' => h'.trans h⟩, fun _ _ _ _ => rfl⟩

theorem askRoot_globalRoots (manager : String) (arguments : List String) (below : Option String)
    (w : World) : (askRoot manager arguments below w).2.globalRoots = w.globalRoots :=
  askRoot_moves logs_globalRoots (fun _ => rfl) w

theorem knownRoot_remembered {manager : String} {arguments : List String} {below root? : Option String}
    (h : knownRoot manager arguments below w = (.ok root?, v)) :
    v.globalRoots.lookup manager = some root? := by
  unfold knownRoot at h
  rw [bind_ok (rfl : (get : Act World World) w = (.ok w, w))] at h
  cases hroot : w.globalRoots.lookup manager with
  | some known? =>
    rw [hroot] at h
    cases h
    exact hroot
  | none =>
    rw [hroot] at h
    dsimp only at h
    have hroots := askRoot_globalRoots manager arguments below w
    rcases hask : askRoot manager arguments below w with ⟨e | told?, t⟩
    · rw [bind_error hask] at h
      cases h
    · rw [hask] at hroots
      rw [bind_ok hask] at h
      cases h
      show (t.globalRoots ++ [(manager, root?)]).lookup manager = some root?
      rw [show t.globalRoots = w.globalRoots from hroots, List.lookup_append, hroot]
      simp

/-- A root that was told is the one from then on, whatever a package manager would print. -/
theorem globalRoot_remembered {manager : Json} {root? : Option String}
    (h : globalRoot manager w = (.ok root?, v)) (hu : u.globalRoots = v.globalRoots) :
    rootOf u manager = .ok root? := by
  unfold globalRoot at h
  unfold rootOf
  cases manager with
  | str name =>
    dsimp only at h ⊢
    cases hcommand : rootCommand? name with
    | none =>
      rw [hcommand] at h
      cases h
      rfl
    | some command =>
      obtain ⟨arguments, below⟩ := command
      simp only [hcommand, Option.map_some] at h
      simp only [hu, knownRoot_remembered h]
  | arr _ | obj _ => cases h
  | _ =>
    cases h
    rfl

theorem globalRoot_sent (manager : Json) (w : World) :
    (globalRoot manager w).2.journal.sent = w.journal.sent :=
  globalRoot_moves logs_sent
    (fun _ _ _ _ => knownRoot_moves logs_sent (fun _ => rfl) fun _ _ => rfl) manager w

theorem askPackageManager_sent (folderUri : String) (w : World) :
    (askPackageManager folderUri w).2.journal.sent =
      w.journal.sent ++ [.askPackageManager folderUri] := by
  unfold askPackageManager
  rw [bind_ok (rfl : (get : Act World World) w = (.ok w, w)),
    bind_ok (rfl : send (.askPackageManager folderUri) w = (.ok (), _))]
  cases w.client.packageManager w.journal.sent folderUri with
  | error reason => rfl
  | ok answer => cases answer <;> rfl

/-- For a file in a folder the client is asked, unless the settings name a package manager. -/
theorem packageManagerFor_sent (hmanager : settings.packageManager = none) {folder : Folder}
    {root : Path} (hfolder : Folder.containing w.folders path = .ok (some (folder, root))) :
    (packageManagerFor path settings w).2.journal.sent =
      w.journal.sent ++ [.askPackageManager folder.uri] := by
  unfold packageManagerFor
  rw [hmanager]
  dsimp only
  rw [bind_ok (rfl : (get : Act World World) w = (.ok w, w)),
    hfolder, bind_ok (ofExcept_apply (.ok (some (folder, root))) w)]
  show ((do return Json.str ((← askPackageManager folder.uri).getD "npm") : Act World Json)
    w).2.journal.sent = _
  rw [map_apply]
  exact askPackageManager_sent folder.uri w

/-- A search for a global installation has been told the root of a package manager. -/
structure Told (w : World) (path : String) (settings : Settings) (asked : Json)
    (root? : Option String) (v : World) : Prop where
  manager : managerFor w path settings = .ok asked
  root : rootOf w asked = .ok root?
  remembered : ∀ u : World, u.globalRoots = v.globalRoots → rootOf u asked = .ok root?
  sent : settings.packageManager = none → ∀ folder root,
    Folder.containing w.folders path = .ok (some (folder, root)) →
    v.journal.sent = w.journal.sent ++ [.askPackageManager folder.uri]

theorem Told.logged {asked : Json} {root? : Option String} {v' : World}
    (h : Told w path settings asked root? v) (hv : Logged v v') :
    Told w path settings asked root? v' := by
  obtain ⟨records, rfl⟩ := hv
  exact ⟨h.manager, h.root, h.remembered, h.sent⟩

/-- What a search for a global installation comes to: it is told a root, or the fault of that is its
own. -/
theorem globalModule_told (hglobal : settings.resolveGlobalModules = true)
    {r : Except Fault (Option Found)} (h : globalModule path settings w = (r, v)) :
    (∃ e, rootFor w path settings = .error e ∧ r = .error e) ∨
      ∃ asked root?, Told w path settings asked root? v := by
  unfold globalModule at h
  rw [if_pos hglobal] at h
  obtain ⟨hmanager, journal, hjournal⟩ := packageManagerFor_apply path settings w
  rcases hask : packageManagerFor path settings w with ⟨e | asked, t⟩
  · rw [hask] at hmanager
    rw [bind_error hask] at h
    cases h
    refine .inl ⟨e, ?_, rfl⟩
    rw [rootFor, ← hmanager]
    rfl
  · rw [hask] at hmanager hjournal
    obtain rfl : t = { w with journal } := hjournal
    rw [bind_ok hask] at h
    have hroot : rootOf w asked = (globalRoot asked { w with journal }).1 :=
      (globalRoot_fst asked { w with journal }).symm
    rcases hroots : globalRoot asked { w with journal } with ⟨e | root?, t⟩
    · rw [hroots] at hroot
      rw [bind_error hroots] at h
      cases h
      refine .inl ⟨e, ?_, rfl⟩
      rw [rootFor, ← hmanager]
      exact hroot
    · rw [hroots] at hroot
      rw [bind_ok hroots] at h
      refine .inr ⟨asked, root?, Told.logged (v := t) ⟨hmanager.symm, hroot, fun u hu => ?_,
        fun hnone folder root hfolder => ?_⟩ ?_⟩
      · exact globalRoot_remembered hroots hu
      · have hsent := packageManagerFor_sent hnone hfolder
        have hkept := globalRoot_sent asked { w with journal }
        rw [hask] at hsent
        rw [hroots] at hkept
        exact hkept.trans hsent
      · cases root? with
        | some root =>
          change tryLoad _ _ t = (r, v) at h
          rw [show v = (tryLoad _ _ t).2 from by rw [h]]
          exact tryLoad_moves logs_logged _ _ t
        | none =>
          cases h
          exact .refl _

/-- So does a whole search that finds no local installation. -/
theorem find_told (hnamed : settings.prettierPath = none)
    (hglobal : settings.resolveGlobalModules = true) (hnearby : (localModule path w).1 = .ok none)
    {r : Except Fault (Option Found)} (h : find path settings w = (r, v)) :
    (∃ e, rootFor w path settings = .error e ∧ r = .error e) ∨
      ∃ asked root?, Told w path settings asked root? v := by
  obtain ⟨-, records, hlogged⟩ := localModule_search path w
  unfold find at h
  rw [hnamed] at h
  dsimp only at h
  rw [bind_ok (Prod.ext hnearby hlogged)] at h
  dsimp only at h
  rcases hmodule : globalModule path settings { w with journal := { w.journal with records } } with
    ⟨r', t⟩
  obtain ⟨e, hroot, rfl⟩ | ⟨asked, root?, htold⟩ := globalModule_told hglobal hmodule
  · rw [bind_error hmodule] at h
    cases h
    exact .inl ⟨e, hroot, rfl⟩
  · refine .inr ⟨asked, root?, Told.logged (v := t) ⟨htold.manager, htold.root, htold.remembered,
      htold.sent⟩ ?_⟩
    match r' with
    | .error e =>
      rw [bind_error hmodule] at h
      cases h
      exact .refl _
    | .ok (some found) =>
      rw [bind_ok hmodule] at h
      cases h
      exact .refl _
    | .ok none =>
      rw [bind_ok hmodule] at h
      change bundledModule t = (r, v) at h
      rw [show v = (bundledModule t).2 from by rw [h]]
      exact bundledModule_moves logs_logged t

/-! ## A second search -/

/-- No root is a fault of its own kind. -/
theorem rootFor_failure (hnamed : settings.prettierPath = none) (f : Failure) :
    rootFor w path settings ≠ .error (.failure f) := by
  intro h
  cases rootFor_untold h with
  | unresolved s hs => rw [hnamed] at hs; cases hs

theorem find_given (path : String) (settings : Settings) (w : World) :
    (find path settings w).2.given = w.given :=
  (find_frame (M := fun _ => True) (L := fun _ => True)
    (fun _ _ => ⟨fun _ => trivial, fun _ _ _ _ => trivial⟩) w).given

section
variable {r : Except Fault (Option Found)} (h : find path settings w = (r, v))
  (hu : Revisited v u) (hconsistent : Consistent w v)
include h hu hconsistent

theorem Told.again {asked : Json} {root? : Option String}
    (htold : Told w path settings asked root? v) : rootFor u path settings = .ok root? := by
  have hgiven : u.given = w.given := hu.given.trans (by rw [← find_given path settings w, h])
  have hclient : u.client = w.client := congrArg (·.client) hgiven
  have hfolders : u.folders = w.folders := congrArg (·.folders) hgiven
  have hmanager : managerFor u path settings = managerFor w path settings := by
    unfold managerFor
    cases hnone : settings.packageManager with
    | some manager => rfl
    | none =>
      dsimp only
      rw [hfolders]
      cases hfolder : Folder.containing w.folders path with
      | error e => rfl
      | ok found? =>
        cases found? with
        | none => rfl
        | some found =>
          have hsent := htold.sent hnone found.1 found.2 hfolder
          have hsame : namedManager? u found.1.uri = namedManager? w found.1.uri := by
            unfold namedManager?
            rw [hclient, hu.sent, hconsistent _ hsent]
          show Except.ok (Json.str ((namedManager? u found.1.uri).getD "npm")) = _
          rw [hsame]
          rfl
  rw [rootFor, hmanager, htold.manager]
  exact htold.remembered u hu.globalRoots

/-- A search that ends in a module, in none or in a failure ends so again. -/
theorem find_again (hr : ∀ e, r = .error e → ∃ f, e = .failure f) :
    (find path settings u).1 = r := by
  have hgiven : u.given = w.given := hu.given.trans (by rw [← find_given path settings w, h])
  have hfiles : u.files = w.files := congrArg (·.files) hgiven
  have hhome : u.home = w.home := congrArg (·.home) hgiven
  have hlimits : u.limits = w.limits := congrArg (·.limits) hgiven
  have hconfig : u.config = w.config := congrArg (·.config) hgiven
  have htrusted : u.trusted = w.trusted := congrArg (·.trusted) hgiven
  have hfolders : u.folders = w.folders := congrArg (·.folders) hgiven
  have hfirst : r = search w.limits w.files (candidates w path settings) := by
    rw [← find_search, h]
  have hnearby : nearbyCandidates u path = nearbyCandidates w path := by
    simp only [nearbyCandidates, hfiles, htrusted]
  have hbundled : bundledCandidates u = bundledCandidates w := by
    simp only [bundledCandidates, hconfig]
  rw [find_search, hfirst, hfiles, hlimits]
  cases hnamed : settings.prettierPath with
  | some setting =>
    have hpath : namedPath u path setting = namedPath w path setting := by
      cases setting <;> simp only [namedPath, hhome, hfolders]
    rw [candidates_of_named hnamed, candidates_of_named hnamed, hpath]
  | none =>
    simp only [candidates, hnamed, hnearby, hbundled, search_append, orNext_assoc]
    by_cases hlocal : search w.limits w.files (nearbyCandidates w path) = .ok none
    · -- only here is a root asked for
      have hglobals : globalCandidates u path settings = globalCandidates w path settings := by
        unfold globalCandidates
        by_cases hglobal : settings.resolveGlobalModules = true
        · obtain ⟨e, hroot, rfl⟩ | ⟨asked, root?, htold⟩ :=
            find_told hnamed hglobal ((localModule_search path w).1.trans hlocal) h
          · obtain ⟨f, rfl⟩ := hr e rfl
            exact absurd hroot (rootFor_failure hnamed f)
          · rw [htold.again h hu hconsistent, rootFor, htold.manager]
            simp only [Except.bind, htold.root]
        · rw [if_neg hglobal, if_neg hglobal]
      rw [hglobals]
    · rw [orNext_of_ne hlocal, orNext_of_ne hlocal]

end

/-! ## The same engine -/

theorem find_engines (path : String) (settings : Settings) (w : World) :
    (find path settings w).2.engines = w.engines := by
  have hlogs : Logs fun w w' : World => w'.engines = w.engines :=
    ⟨⟨fun _ => rfl, fun h h' => h'.trans h⟩, fun _ _ _ _ => rfl⟩
  exact find_moves hlogs (fun _ _ => ⟨fun _ _ => rfl,
    fun _ _ _ _ => knownRoot_moves hlogs (fun _ => rfl) fun _ _ => rfl⟩) w

/-- The engine that runs a module: the one of the session, or a new one that is kept. -/
def keep (found : Found) : Act World Engine := do
  let w ← get
  match w.engines.find? (·.modulePath = found.modulePath) with
  | some e => return e
  | none =>
    let shown := if found.version = "" then "(unknown version)" else found.version
    log Level.info ("Using Prettier " ++ shown ++ " from " ++ found.modulePath)
    let e : Engine := ⟨found.modulePath, w.config.nodePath, some found.version⟩
    modify fun w => { w with engines := w.engines ++ [e] }
    return e

theorem engine?_eq (path : String) (settings : Settings) :
    engine? path settings = do
      match ← find path settings with
      | none => return none
      | some found => return some (← keep found) := by
  unfold engine?
  refine congrArg _ (funext fun found? => ?_)
  cases found? with
  | none => rfl
  | some found =>
    unfold keep
    refine funext fun w => ?_
    dsimp only
    rw [bind_ok (rfl : (get : Act World World) w = (.ok w, w)), map_apply,
      bind_ok (rfl : (get : Act World World) w = (.ok w, w))]
    cases w.engines.find? (·.modulePath = found.modulePath) <;> rfl

theorem keep_of_kept {found : Found} {e : Engine}
    (h : w.engines.find? (·.modulePath = found.modulePath) = some e) : keep found w = (.ok e, w) := by
  unfold keep
  rw [bind_ok (rfl : (get : Act World World) w = (.ok w, w)), h]
  rfl

/-- The engine that is kept is the one that runs its module, and it is added only if there was
none. -/
theorem keep_apply (found : Found) (w : World) :
    ∃ e engines records,
      keep found w = (.ok e, { w with engines, journal := { w.journal with records } }) ∧
      e.modulePath = found.modulePath ∧
      engines.find? (·.modulePath = found.modulePath) = some e ∧
      (engines = w.engines ∨
        engines = w.engines ++ [e] ∧ ∀ e' ∈ w.engines, e'.modulePath ≠ found.modulePath) := by
  unfold keep
  rw [bind_ok (rfl : (get : Act World World) w = (.ok w, w))]
  cases hkept : w.engines.find? (·.modulePath = found.modulePath) with
  | some e =>
    exact ⟨e, w.engines, w.journal.records, rfl, by simpa using List.find?_some hkept, hkept,
      .inl rfl⟩
  | none =>
    refine ⟨_, _, _, rfl, rfl, ?_, .inr ⟨rfl, ?_⟩⟩
    · rw [List.find?_append, hkept]
      simp
    · simpa using hkept

/-- A second lookup comes to the engine that the first one found. -/
theorem engine?_again {e : Engine} (h : engine? path settings w = (.ok (some e), v))
    (hu : Revisited v u) (hengines : u.engines = v.engines) (hconsistent : Consistent w v) :
    ∃ u', engine? path settings u = (.ok (some e), u') := by
  rw [engine?_eq] at h ⊢
  rcases hfind : find path settings w with ⟨e' | found?, t⟩
  · rw [bind_error hfind] at h
    cases h
  rw [bind_ok hfind] at h
  cases found? with
  | none => cases h
  | some found =>
    dsimp only at h
    obtain ⟨e', engines, records, hkeep, -, hkept, -⟩ := keep_apply found t
    rw [map_apply, hkeep] at h
    cases h
    have hagain := find_again (u := u) hfind ⟨hu.given, hu.globalRoots, hu.sent⟩ hconsistent
      fun _ h => nomatch h
    rw [bind_ok (Prod.ext hagain rfl)]
    dsimp only
    rw [map_apply, keep_of_kept (e := e)]
    · exact ⟨_, rfl⟩
    · rw [find_engines, hengines]
      exact hkept

end FormatServer.Installation
