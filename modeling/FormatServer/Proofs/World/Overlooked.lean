import FormatServer.Proofs.Files
import FormatServer.Proofs.Installation.Choice
import FormatServer.Proofs.Pipeline.Virtual
import FormatServer.Session.Task

/-!
# Files that make no difference

An action overlooks other files if it does the same where the world has those instead
(`World.Overlooks`). Only the manifests of modules are read in a search for a file with a relative
path, so that it overlooks files that agree with its own on its candidates
(`Installation.find_overlooks`). Asking an engine reads no file at all.
-/

set_option autoImplicit false

namespace FormatServer

open Act World

variable {α β : Type} {files : Files} {w : World}

/-- In `w` the action does the same if the files are others. -/
def World.Overlooks (files : Files) (w : World) (x : Act World α) : Prop :=
  x { w with files } = ((x w).1, { (x w).2 with files })

namespace World.Overlooks

theorem pure (a : α) : Overlooks files w (Pure.pure a) := rfl

theorem throw (e : Fault) : Overlooks files w (MonadExcept.throw e : Act World α) := rfl

theorem fail (f : Failure) : Overlooks files w (Act.fail f : Act World α) := rfl

theorem ofExcept (r : Except Fault α) : Overlooks files w (Act.ofExcept r) := rfl

theorem bind {x : Act World α} {f : α → Act World β} (hx : Overlooks files w x)
    (hf : ∀ a v, x w = (.ok a, v) → Overlooks files v (f a)) : Overlooks files w (x >>= f) := by
  unfold Overlooks at hx hf ⊢
  rw [bind_apply, bind_apply, hx]
  rcases h : x w with ⟨r, v⟩
  cases r with
  | ok a => exact hf a v h
  | error e => rfl

/-- An action that looks at the world, but not at its files. -/
theorem get {f : World → Act World β} (hsame : f { w with files } = f w)
    (hf : Overlooks files w (f w)) : Overlooks files w (MonadState.get >>= f) := by
  show f { w with files } { w with files } = _
  rw [hsame]
  exact hf

theorem recover {x : Act World α} (hx : Overlooks files w x) (stage : Stage) :
    Overlooks files w (Act.recover stage x) := by
  unfold Overlooks at hx ⊢
  rw [recover_apply, recover_apply, hx]

theorem alike {x : Act World α} (h : ∀ w, Overlooks files w x) :
    Act.Alike (fun w w' => w' = { w with files }) Eq x x := by
  rintro w _ rfl
  rw [show x { w with files } = _ from h w]
  exact ⟨rfl, .refl (fun _ => rfl) _⟩

theorem ofAlike {x : Act World α} (h : Act.Alike (fun w w' => w' = { w with files }) Eq x x) :
    Overlooks files w x := by
  obtain ⟨hstate, hend⟩ := h w _ rfl
  exact Prod.ext hend.eq.symm hstate

end World.Overlooks

open World.Overlooks

/-! ## Single actions -/

theorem record_overlooks (r : LogRecord) : Overlooks files w (record r) := rfl

theorem logEntry_overlooks (entry : LogEntry) : Overlooks files w (logEntry entry) := by
  unfold logEntry
  exact .get rfl (.bind (.ofExcept _) fun r _ _ => record_overlooks r)

theorem log_overlooks (level : Int) (message : String) : Overlooks files w (log level message) := rfl

theorem send_overlooks (m : Message) : Overlooks files w (send m) := rfl

theorem start_overlooks (command : Command) (stdin : Option Json) :
    Overlooks files w (start command stdin) := rfl

theorem askPackageManager_overlooks (folderUri : String) :
    Overlooks files w (askPackageManager folderUri) := by
  unfold askPackageManager
  refine .get rfl (.bind (send_overlooks _) fun _ v _ => ?_)
  split
  · exact .bind (log_overlooks _ _) fun _ _ _ => .pure _
  · exact .pure _
  · exact .pure _

theorem fetchSettings_overlooks (uri : String) : Overlooks files w (fetchSettings uri) := by
  unfold fetchSettings
  refine .bind (.ofExcept _) fun key v _ => .get rfl ?_
  split
  · exact .pure _
  split
  · exact .fail _
  · refine .bind (send_overlooks _) fun _ _ _ => .bind rfl fun _ _ _ => ?_
    split
    · exact .pure _
    · exact .bind rfl fun _ _ _ => .pure _

/-! ## Finding the formatter -/

namespace Installation

variable {path : String} {settings : Settings}

/-- Where the files agree on a module its version is the same. -/
theorem readVersion_agree {m : String} (h : w.files.AgreeBelow files m) :
    readVersion w.limits files m = readVersion w.limits w.files m := by
  have hname : Path.Ordinary "package.json" ∧ "package.json" ≠ ".." := by decide
  have hread := (h ["package.json"] (List.forall_mem_singleton.2 hname)).read
  have hmanifest : manifestPath m = (Path.parse m).join ⟨.relative, ["package.json"]⟩ := by
    rw [manifestPath, Path.parse_of_ordinary hname.1]
  unfold readVersion manifest manifestText?
  rw [hmanifest, hread]

theorem load_overlooks {m : String} (h : w.files.AgreeBelow files m) :
    Overlooks files w (load m) := by
  unfold Overlooks
  rw [load_apply, load_apply]
  show ((readVersion w.limits files m).map _, _) = _
  rw [readVersion_agree h]

theorem tryLoad_overlooks {m : String} (h : w.files.AgreeBelow files m) (skipping : String) :
    Overlooks files w (tryLoad m skipping) := by
  unfold tryLoad
  refine .bind (.recover (load_overlooks h) .module) fun outcome v _ => ?_
  cases outcome with
  | ok found => exact .pure _
  | error f => exact .bind (log_overlooks _ _) fun _ _ _ => .pure _

theorem explicitPath_overlooks (path : String) (setting : Json) :
    Overlooks files w (explicitPath path setting) := by
  have hnamed : namedPath { w with files } path setting = namedPath w path setting := by
    unfold namedPath
    rfl
  unfold Overlooks
  rw [explicitPath_apply, explicitPath_apply, hnamed]

/-- For a relative path nothing is looked for nearby. -/
theorem localModule_relative (hpath : Spelling.isAbsolute path = false) (w : World) :
    localModule path w = (.ok none, w) := by
  unfold localModule
  rw [bind_ok (rfl : (MonadState.get : Act World World) w = (.ok w, w)), hpath, Bool.and_false,
    if_neg Bool.false_ne_true]
  rfl

theorem packageManagerFor_overlooks (path : String) (settings : Settings) :
    Overlooks files w (packageManagerFor path settings) := by
  unfold packageManagerFor
  split
  · exact .pure _
  · refine .get rfl (.bind (.ofExcept _) fun found? v _ => ?_)
    split
    · exact .bind (askPackageManager_overlooks _) fun _ _ _ => .pure _
    · exact .pure _

theorem askRoot_overlooks (manager : String) (arguments : List String) (below : Option String) :
    Overlooks files w (askRoot manager arguments below) := by
  rw [askRoot_eq]
  refine .bind (start_overlooks _ _) fun reply v _ => ?_
  cases reply with
  | notStarted reason => exact .bind (log_overlooks _ _) fun _ _ _ => .pure _
  | malformed reason => exact .throw _
  | finished stdout stderr exitCode =>
    have report : ∀ (root? : Option String) (v : World), Overlooks files v (do
        if root?.isNone then
          log Level.warning (manager ++ " " ++ " ".intercalate arguments ++ " failed: " ++
            String.ofList (Text.trim (Text.decodeLossy stderr)))
        return root?) := fun root? v => by
      split
      · exact .bind (log_overlooks _ _) fun _ _ _ => .pure _
      · exact .pure _
    dsimp only [settleRoot]
    split
    · exact .bind (.ofExcept _) fun root? v _ => report root? v
    · exact .bind (.pure _) fun root? v _ => report root? v

theorem globalRoot_overlooks (manager : Json) : Overlooks files w (globalRoot manager) := by
  have unknown (message : String) : Overlooks files w
      (do log Level.warning message; return none : Act World (Option String)) :=
    .bind (log_overlooks _ _) fun _ _ _ => .pure _
  unfold globalRoot
  split
  · exact .throw _
  · exact .throw _
  · dsimp only
    split
    · refine .get rfl ?_
      split
      · exact .pure _
      · refine .bind (askRoot_overlooks _ _ _) fun root? v _ => ?_
        exact .bind rfl fun _ _ _ => .pure _
    · exact unknown _

/-- A global root that is found is the one of the candidates. -/
theorem rootFor_of_globalRoot {manager : Json} {root? : Option String} {v v' : World}
    (hmanager : packageManagerFor path settings w = (.ok manager, v))
    (hroot : globalRoot manager v = (.ok root?, v')) : rootFor w path settings = .ok root? := by
  obtain ⟨hfor, journal, hjournal⟩ := packageManagerFor_apply path settings w
  rw [hmanager] at hfor hjournal
  have hfst := globalRoot_fst manager v
  rw [hroot, show v = _ from hjournal] at hfst
  rw [rootFor, ← hfor]
  exact hfst.symm

/-- A relative path has no modules nearby. -/
theorem candidates_relative (hpath : Spelling.isAbsolute path = false) (w : World)
    (settings : Settings) {c : Candidate} (hc : .ok c ∈ candidates w path settings) :
    c.place = .named ∨ c.place = .global ∨ c.place = .bundled := by
  cases hnamed : settings.prettierPath with
  | some setting =>
    rw [candidates_of_named hnamed, List.mem_singleton] at hc
    cases hm : namedPath w path setting with
    | error e =>
      rw [hm] at hc
      cases hc
    | ok m =>
      rw [hm] at hc
      cases hc
      exact .inl rfl
  | none =>
    obtain hnearby | hglobal | hbundled := (mem_candidates hnamed).1 hc
    · rw [nearbyCandidates, hpath, Bool.and_false] at hnearby
      cases hnearby
    · obtain ⟨_, ⟨root, _, h⟩ | ⟨e, _, h⟩⟩ := mem_globalCandidates.1 hglobal
      · cases h
        exact .inr (.inl rfl)
      · cases h
    · obtain ⟨s, _, _, h⟩ | ⟨_, _, h⟩ := mem_bundledCandidates.1 hbundled
      · cases h
        exact .inr (.inr rfl)
      · cases h

/-- The files agree on all modules that are looked at. -/
def AgreeOnCandidates (w : World) (files : Files) (path : String) (settings : Settings) : Prop :=
  ∀ c, .ok c ∈ candidates w path settings → w.files.AgreeBelow files c.modulePath

theorem globalModule_overlooks (h : ∀ root, settings.resolveGlobalModules = true →
    rootFor w path settings = .ok (some root) →
      w.files.AgreeBelow files (Spelling.join root "prettier")) :
    Overlooks files w (globalModule path settings) := by
  have ha : MayAsk (fun _ => True) (fun _ => True) := ⟨fun _ => trivial, fun _ _ _ _ => trivial⟩
  unfold globalModule
  split
  · next hglobal =>
    refine .bind (packageManagerFor_overlooks path settings) fun manager v hmanager => ?_
    refine .bind (globalRoot_overlooks manager) fun root? v' hroot => ?_
    cases root? with
    | none => exact .pure _
    | some root =>
      have hframe := World.Frame.moving.trans (packageManagerFor_frame ha path settings w)
        (globalRoot_frame ha manager _)
      rw [hmanager, hroot] at hframe
      refine tryLoad_overlooks ?_ _
      rw [hframe.files]
      exact h root hglobal (rootFor_of_globalRoot hmanager hroot)
  · exact .pure _

theorem bundledModule_overlooks (h : ∀ m, w.config.bundledPrettierPath = .str m → m ≠ "" →
    w.files.AgreeBelow files m) : Overlooks files w bundledModule := by
  unfold bundledModule
  refine .get rfl ?_
  dsimp only
  split
  · next m hm =>
    split
    · exact .pure _
    · next hne => exact .bind (load_overlooks (h m hm hne)) fun _ _ _ => .pure _
  · split
    · exact .throw _
    · exact .pure _

/-- A search for a file with a relative path reads nothing but the manifests of its candidates. -/
theorem find_overlooks (hpath : Spelling.isAbsolute path = false)
    (h : AgreeOnCandidates w files path settings) : Overlooks files w (find path settings) := by
  unfold find
  cases hnamed : settings.prettierPath with
  | some setting =>
    refine .bind (explicitPath_overlooks path setting) fun m v hm => ?_
    rw [explicitPath_apply, Prod.mk.injEq] at hm
    obtain ⟨hm, rfl⟩ := hm
    have hmem : .ok ⟨.named, m⟩ ∈ candidates w path settings := by
      rw [candidates_of_named hnamed, hm]
      exact List.mem_singleton_self _
    exact .bind (load_overlooks (h ⟨.named, m⟩ hmem)) fun _ _ _ => .pure _
  | none =>
    have mem (x : Except Fault Candidate) : _ → x ∈ candidates w path settings :=
      (mem_candidates hnamed).2
    have hlocal : Overlooks files w (localModule path) := by
      unfold Overlooks
      rw [localModule_relative hpath, localModule_relative hpath]
    refine .bind hlocal fun found? v hv => ?_
    rw [localModule_relative hpath, Prod.mk.injEq] at hv
    obtain ⟨hfound, rfl⟩ := hv
    cases hfound
    refine .bind (globalModule_overlooks fun root hglobal hroot => ?_) fun found? v hv => ?_
    · exact h ⟨.global, Spelling.join root "prettier"⟩
        (mem _ (.inr (.inl (mem_globalCandidates.2 ⟨hglobal, .inl ⟨root, hroot, rfl⟩⟩))))
    cases found? with
    | some found => exact .pure _
    | none =>
      have hframe : World.Frame (fun _ => True) (fun _ => True) w (globalModule path settings w).2 :=
        globalModule_frame (fun _ => ⟨fun _ => trivial, fun _ _ _ _ => trivial⟩) w
      rw [hv] at hframe
      refine bundledModule_overlooks fun m hm hne => ?_
      rw [hframe.config] at hm
      rw [hframe.files]
      exact h ⟨.bundled, m⟩ (mem _ (.inr (.inr (mem_bundledCandidates.2 (.inl ⟨m, hm, hne, rfl⟩)))))

theorem engine_overlooks (hpath : Spelling.isAbsolute path = false)
    (h : AgreeOnCandidates w files path settings) : Overlooks files w (engine? path settings) := by
  unfold engine?
  refine .bind (find_overlooks hpath h) fun found? v _ => ?_
  cases found? with
  | none => exact .pure _
  | some found =>
    refine .get rfl ?_
    split
    · exact .pure _
    · exact .bind (log_overlooks _ _) fun _ _ _ => .bind rfl fun _ _ _ => .pure _

theorem reportedEngine_overlooks (hpath : Spelling.isAbsolute path = false)
    (h : AgreeOnCandidates w files path settings) :
    Overlooks files w (reportedEngine? path settings) := by
  unfold reportedEngine?
  refine .bind (.recover (engine_overlooks hpath h) .module) fun outcome v _ => ?_
  match outcome with
  | .error f => exact .bind (log_overlooks _ _) fun _ _ _ => .pure _
  | .ok none => exact .bind (log_overlooks _ _) fun _ _ _ => .pure _
  | .ok (some e) => exact .pure _

end Installation

/-! ## Asking the formatter -/

namespace Engine

variable (e : Engine)

theorem call_overlooks (method : String) (payload : Json) :
    Overlooks files w (e.call method payload) := by
  unfold call
  refine .bind (log_overlooks _ _) fun _ _ _ => .bind (start_overlooks _ _) fun reply _ _ => ?_
  cases reply with
  | notStarted reason => exact .fail _
  | malformed reason => exact .throw _
  | finished stdout stderr exitCode => exact .get rfl (.ofExcept _)

theorem format_overlooks (text : String) (options : Fields) :
    Overlooks files w (e.format text options) := by
  unfold format
  refine .bind (call_overlooks e _ _) fun answer _ _ => ?_
  split
  · exact .pure _
  · exact .fail _

theorem languageTable_overlooks : Overlooks files w e.languageTable := by
  unfold languageTable
  refine .get rfl ?_
  split
  · exact .pure _
  · refine .bind (call_overlooks e _ _) fun answer _ _ => .bind (.ofExcept _) fun table _ _ => ?_
    exact .bind rfl fun _ _ _ => .pure _

end Engine

/-! ## Virtual documents -/

theorem LocalConfiguration.find_virtual {d : Snapshot} (hd : d.isFile = false) (settings : Settings)
    (w : World) : find d settings w = (.ok .missing, w) := by
  rw [find, hd]
  rfl

namespace Pipeline

variable {d : Snapshot} {path : String} {settings : Settings}

theorem remaining_alike : World.collaborators.remaining.Alike (fun w w' => w' = { w with files })
    Eq World.collaborators.remaining where
  use h := by subst h; exact ⟨rfl, rfl, rfl⟩
  log entry := Overlooks.alike fun _ => logEntry_overlooks entry
  localConfig _ _ _ _ := .pure rfl
  engine _ _ _ _ := .pure rfl
  ignoreFile _ _ := .pure rfl
  fileInfo _ _ _ := .throw _
  languages e := Overlooks.alike fun _ => e.languageTable_overlooks
  format e text options := Overlooks.alike fun _ => e.format_overlooks text options

/-- A virtual document with a relative path has the files read on which its candidates are, and no
others. -/
theorem formatVirtual_overlooks (hpath : Spelling.isAbsolute path = false)
    (h : Installation.AgreeOnCandidates w files path settings) (text : String) (d : Snapshot)
    (request : FormatRequest) :
    Overlooks files w (formatVirtual World.collaborators text d path request settings) := by
  unfold formatVirtual
  refine .bind (Installation.reportedEngine_overlooks hpath h) fun e? v _ => ?_
  cases e? with
  | none => exact .bind (record_overlooks _) fun _ _ _ => .pure _
  | some e =>
    exact .ofAlike (parseAndFormat_alike remaining_alike rfl text d path .missing request e .virtual)

theorem complete_error_overlooks (text : String) (d : Snapshot) (path : String)
    (request : FormatRequest) (e : Fault) :
    Overlooks files w (complete World.collaborators text d path request (.error e)) := by
  unfold complete
  refine .bind (.recover (.ofExcept _) .settings) fun outcome v h => ?_
  cases outcome with
  | error f => exact .bind (record_overlooks _) fun _ _ _ => .pure _
  | ok settings =>
    rw [recover_apply, Prod.mk.injEq] at h
    cases settled_ok.1 h.1

theorem complete_overlooks (hd : d.isFile = false) (hpath : Spelling.isAbsolute path = false)
    (h : Installation.AgreeOnCandidates w files path settings) (text : String)
    (request : FormatRequest) :
    Overlooks files w (complete World.collaborators text d path request (.ok settings)) := by
  have hlocal := LocalConfiguration.find_virtual hd settings
  unfold Overlooks
  rw [complete_virtual hd text path request (hlocal _),
    complete_virtual hd text path request (hlocal w)]
  exact formatVirtual_overlooks hpath h text d request

end Pipeline

end FormatServer
