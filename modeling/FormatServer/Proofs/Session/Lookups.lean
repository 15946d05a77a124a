import FormatServer.Proofs.Installation.Repeated
import FormatServer.Proofs.LocalConfiguration.Outcome
import FormatServer.Proofs.Session.Untrusted

/-!
# The two lookups of a request

A request to format a file looks for its engine twice: for the local configuration, where failing
to find one is not reported, and to format. The first lookup changes what the second one reads, and
still both come to the same (`lookups_agree`): the engine that is asked for the local configuration
formats, and a missing one is reported once.
-/

set_option autoImplicit false

namespace FormatServer

open Act

/-- The process is one of a package manager. -/
def Launch.asksRoot (l : Launch) : Prop :=
  ∃ manager arguments, l.command = .manager manager arguments

/-- The record is one of an error. -/
def LogRecord.isError (r : LogRecord) : Bool := Level.error ≤ r.level

/-- What is reported if a lookup ended without an engine. -/
def Installation.report (path : String) : Except Fault (Option Engine) → String
  | .error (.failure f) => "Failed to load Prettier: " ++ f.format
  | _ => "No Prettier installation found for " ++ path

/-- No error is logged, and no process is started but those in `L`. -/
structure World.Unheard (L : Launch → Prop) (w w' : World) : Prop where
  records :
    w'.journal.records.filter LogRecord.isError = w.journal.records.filter LogRecord.isError
  launches : Adds L w.journal.launches w'.journal.launches

/-- A request that was made in `w₀` comes to `w` with its settings, and goes on at once. -/
def Request.Arrives (r : Request) (settings : Settings) (rest : Continuation) (w₀ w : World) :
    Prop :=
  ∃ uri u n, r.announce w₀ = (.ok (uri, rest), u) ∧ World.fetchSettings uri u = (.ok n, w) ∧
    w.cache.outcome? n = some (.ok settings)

/-- What a request for a file comes to that goes on from `w` with its settings, where the client
would answer both lookups alike. -/
structure Lookups (d : Snapshot) (path : String) (settings : Settings) (request : FormatRequest)
    (w : World) : Prop where
  /-- Before this it has logged no error and started nothing, and it answers as it goes on. -/
  begun : ∀ label w₀, let rest := Continuation.edits d path request label
    (Request.edits d request label).Arrives settings rest w₀ w →
      (Request.edits d request label).run w₀ = Progress.ends (rest.resume (.ok settings) w) ∧
      World.Unheard (fun _ => False) w₀ w
  /-- The engine of the first lookup is asked for the local configuration, and no other one; it is
  the engine of the second lookup, and formats if the configuration allows it. -/
  loaded : ∀ e v, Installation.engine? path settings w = (.ok (some e), v) →
    Installation.Consistent w v →
    ∃ inquiries u',
      LocalConfiguration.Asked e path inquiries v (LocalConfiguration.find d settings w).2 ∧
      Installation.reportedEngine? path settings (LocalConfiguration.find d settings w).2 =
        (.ok (some e), u') ∧
      ∀ text config, (LocalConfiguration.find d settings w).1 = .ok config →
        config.allowsFormatting = true →
        Pipeline.complete World.collaborators text d path request (.ok settings) w =
          Pipeline.inspectAndFormat World.collaborators text d path settings config request e u'
  /-- Without an engine nothing is formatted and no engine is started. One error says why, the other
  one refers to it. -/
  unloaded : ∀ r v, Installation.engine? path settings w = (r, v) → Installation.Consistent w v →
    (r = .ok none ∨ ∃ f, r = .error (.failure f)) →
    ∃ u, (∀ text, Pipeline.complete World.collaborators text d path request (.ok settings) w =
        (.ok none, u)) ∧
      (∀ label, (Continuation.edits d path request label).resume (.ok settings) w =
        (.ok (.edits []), u)) ∧
      Adds Launch.asksRoot w.journal.launches u.journal.launches ∧
      u.journal.records.filter LogRecord.isError =
        w.journal.records.filter LogRecord.isError ++
          [⟨Level.error, Installation.report path r⟩,
            ⟨Level.error, "Prettier could not be loaded. See previous logs for more information."⟩]

/-! ## What is not heard -/

namespace World

variable {L : Launch → Prop}

theorem Unheard.moving : Moving (Unheard L) where
  refl _ := ⟨rfl, .nothing⟩
  trans h h' := ⟨h'.records.trans h.records, h.launches.trans h'.launches⟩

theorem log_unheard {level : Int} (message : String) (h : level < Level.error) :
    Moves (Unheard L) (log level message) := fun w => by
  refine ⟨?_, .nothing⟩
  have hquiet : LogRecord.isError ⟨level, message⟩ = false := by simpa [LogRecord.isError] using h
  show (w.journal.records ++ [(⟨level, message⟩ : LogRecord)]).filter LogRecord.isError = _
  rw [List.filter_append, List.filter_singleton, hquiet]
  simp

theorem logs_unheard : Installation.Logs (Unheard L) :=
  ⟨Unheard.moving, fun _ message => log_unheard message⟩

end World

namespace Request.Arrives

variable {r : Request} {settings : Settings} {rest : Continuation} {w₀ w : World}
  (h : r.Arrives settings rest w₀ w)
include h

/-- Up to then it has logged no error and started nothing. -/
theorem unheard {L : Launch → Prop} : World.Unheard L w₀ w := by
  obtain ⟨uri, u, n, hannounced, hfetched, -⟩ := h
  have hu := r.announce_moves (World.logs_unheard (L := L)) w₀
  have hw := World.fetchSettings_moves (World.Unheard.moving (L := L)).refl uri
    (fun _ _ => ⟨rfl, .nothing⟩) u
  rw [hannounced] at hu
  rw [hfetched] at hw
  exact World.Unheard.moving.trans hu hw

/-- A request that has arrived at its settings goes on with them. -/
theorem run : r.run w₀ = Progress.ends (rest.resume (.ok settings) w) := by
  obtain ⟨uri, u, n, hannounce, hfetch, houtcome⟩ := h
  unfold Request.run
  rw [bind_ok hannounce]
  dsimp only
  rw [bind_ok (show recover .settings (World.fetchSettings uri) u = (.ok (.ok n), w) from by
    rw [recover_apply, hfetch]; rfl)]
  dsimp only
  rw [bind_ok (rfl : (get : Act World World) w = (.ok w, w)), houtcome]
  exact Progress.ends_apply _ w

end Request.Arrives

namespace Installation

open World

variable {w v u : World} {path : String} {settings : Settings}

theorem find_unheard (path : String) (settings : Settings) :
    Moves (Unheard Launch.asksRoot) (find path settings) :=
  find_moves logs_unheard fun _ _ => ⟨fun _ _ => ⟨rfl, .nothing⟩, fun _ _ _ _ =>
    knownRoot_moves logs_unheard (fun _ => ⟨rfl, .one ⟨_, _, rfl⟩⟩) fun _ _ => ⟨rfl, .nothing⟩⟩

/-! ## Lookups -/

/-- A search that comes to no module, in the end or by a failure, and the lookup with it. -/
inductive Missed (path : String) (settings : Settings) (w v : World) :
    Except Fault (Option Engine) → Prop
  | nothing : find path settings w = (.ok none, v) → Missed path settings w v (.ok none)
  | failed {f : Failure} : find path settings w = (.error (.failure f), v) → f.stage = .module →
      Missed path settings w v (.error (.failure f))

/-- A lookup without an engine is one without a module. -/
theorem missed_of_engine? {r : Except Fault (Option Engine)} (h : engine? path settings w = (r, v))
    (hr : r = .ok none ∨ ∃ f, r = .error (.failure f)) : Missed path settings w v r := by
  rcases hfind : find path settings w with ⟨e | found?, t⟩
  · cases h.symm.trans (engine?_error hfind)
    obtain hr | ⟨f, hf⟩ := hr
    · cases hr
    · cases hf
      exact .failed hfind (find_failed (congrArg Prod.fst hfind))
  · cases found? with
    | none =>
      cases h.symm.trans (engine?_none hfind)
      exact .nothing hfind
    | some found =>
      obtain ⟨e, u, hengine, -⟩ := engine?_some hfind
      cases h.symm.trans hengine
      obtain hr | ⟨f, hf⟩ := hr
      · cases hr
      · cases hf

theorem reportedEngine?_some {e : Engine} (h : engine? path settings w = (.ok (some e), v)) :
    reportedEngine? path settings w = (.ok (some e), v) := by
  unfold reportedEngine?
  rw [bind_ok (show Act.recover .module (engine? path settings) w = (.ok (.ok (some e)), v) from by
    rw [recover_apply, h]; rfl)]
  rfl

namespace Missed

variable {r : Except Fault (Option Engine)} (h : Missed path settings w v r)
include h

/-- The failures of a lookup are the ones that its callers expect. -/
theorem settled : ∃ outcome, recover .module (engine? path settings) w = (.ok outcome, v) ∧
    (outcome = .ok none ∧ r = .ok none ∨ ∃ f, outcome = .error f ∧ r = .error (.failure f)) := by
  rw [recover_apply]
  cases h with
  | nothing hfind =>
    rw [engine?_none hfind]
    exact ⟨_, rfl, .inl ⟨rfl, rfl⟩⟩
  | failed hfind hstage =>
    rw [engine?_error hfind, settled_ok_error.2 ⟨rfl, hstage⟩]
    exact ⟨_, rfl, .inr ⟨_, rfl, rfl⟩⟩

/-- Local configuration is not looked for then. -/
theorem localConfig {d : Snapshot} (hd : d.isFile = true) (hpath : d.path = .ok path) :
    LocalConfiguration.find d settings w = (.ok .missing, v) := by
  obtain ⟨outcome, hrecover, houtcome⟩ := h.settled
  unfold LocalConfiguration.find
  simp only [hd, hpath, Bool.not_true, Bool.false_eq_true, if_false]
  rw [bind_ok (rfl : Act.ofExcept (.ok path) w = (.ok path, w)), bind_ok hrecover]
  obtain ⟨rfl, -⟩ | ⟨f, rfl, -⟩ := houtcome <;> rfl

/-- Who formats reports it. -/
theorem reported : reportedEngine? path settings w =
    (.ok none, (log Level.error (report path r) v).2) := by
  obtain ⟨outcome, hrecover, houtcome⟩ := h.settled
  unfold reportedEngine?
  rw [bind_ok hrecover]
  obtain ⟨rfl, rfl⟩ | ⟨f, rfl, rfl⟩ := houtcome <;> rfl

theorem unheard : Unheard Launch.asksRoot w v := by
  have hmoves := find_unheard path settings w
  cases h with
  | nothing hfind => rwa [hfind] at hmoves
  | failed hfind => rwa [hfind] at hmoves

/-- A second lookup misses as the first one did. -/
theorem again (hu : Revisited v u) (hconsistent : Consistent w v) :
    ∃ t, Missed path settings u t r := by
  cases h with
  | nothing hfind =>
    have hagain := find_again hfind hu hconsistent fun _ h => nomatch h
    exact ⟨_, .nothing (Prod.ext hagain rfl)⟩
  | failed hfind hstage =>
    have hagain := find_again hfind hu hconsistent fun _ h => ⟨_, (Except.error.inj h).symm⟩
    exact ⟨_, .failed (Prod.ext hagain rfl) hstage⟩

end Missed

end Installation

/-! ## The request -/

namespace Pipeline

variable {σ ε : Type} (c : Collaborators σ ε) {d : Snapshot} {path : String} {settings : Settings}
  {config : LocalConfig} {s t u : σ}

theorem complete_loaded {e : ε} (text : String) (request : FormatRequest)
    (hconfig : c.localConfig d settings s = (.ok config, t))
    (hallows : config.allowsFormatting = true)
    (hengine : c.engine path settings t = (.ok (some e), u)) :
    complete c text d path request (.ok settings) s =
      inspectAndFormat c text d path settings config request e u := by
  show withSettings c text d path request settings s = _
  unfold withSettings
  rw [bind_ok hconfig]
  simp only [hallows, Bool.not_true, Bool.false_eq_true, if_false]
  rw [bind_ok hengine]

theorem complete_unloaded (text : String) (request : FormatRequest)
    (hconfig : c.localConfig d settings s = (.ok config, t))
    (hallows : config.allowsFormatting = true)
    (hengine : c.engine path settings t = (.ok none, u)) :
    complete c text d path request (.ok settings) s = (do
      error c "Prettier could not be loaded. See previous logs for more information."
      return none) u := by
  show withSettings c text d path request settings s = _
  unfold withSettings
  rw [bind_ok hconfig]
  simp only [hallows, Bool.not_true, Bool.false_eq_true, if_false]
  rw [bind_ok hengine]

end Pipeline

/-- A world without a formatter: npm, which the client names, cannot be run. -/
def bareWorld : World where
  client := ⟨fun _ _ => .answered (.ok .null), fun _ _ => .ok (.str "npm")⟩
  processes := ⟨fun _ _ => .notStarted "no such file", []⟩
  folders := [⟨"file:///", "root"⟩]

end FormatServer
