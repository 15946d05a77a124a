import FormatServer.Proofs.Installation.Repeated
import FormatServer.Proofs.Session.Tasks

/-!
# How a session moves its world

All that a session does to its world is done by a few actions: it logs and sends, asks a package
manager for its root, keeps an engine, calls its methods and reads its languages, and is given
something (`World.Carries`). Along whatever relation these move the world, every step moves it
(`take_moves`), but for the one by which processes answer differently from then on.
-/

set_option autoImplicit false

namespace FormatServer

open Act Installation

/-- The actions that requests are made of move the world along `R`. -/
structure World.Works (R : World → World → Prop) : Prop where
  moving : Moving R
  record : ∀ r, Moves R (World.record r)
  send : ∀ m, Moves R (World.send m)
  root : ∀ manager arguments below, rootCommand? manager = some (arguments, below) →
    Moves R (knownRoot manager arguments below)
  keep : ∀ found, Moves R (Installation.keep found)
  call : ∀ (e : Engine) method payload, method ≠ "getSupportInfo" → Moves R (e.call method payload)
  languages : ∀ e : Engine, Moves R e.languageTable

/-- So does what a session is given, and what it notes of settings. -/
structure World.Carries (R : World → World → Prop) : Prop extends World.Works R where
  given : ∀ {w w'}, w'.processes = w.processes → w'.engines = w.engines →
    w'.languages = w.languages → w'.globalRoots = w.globalRoots → w'.limits = w.limits →
    w'.journal = w.journal → R w w'

namespace World.Works

variable {R : World → World → Prop} (h : World.Works R)
include h

/-! ## Engines -/

theorem logs : Logs R := ⟨h.moving, fun _ _ _ => h.record _⟩

theorem logEntry (entry : LogEntry) : Moves R (World.logEntry entry) := by
  have hR := h.moving
  unfold World.logEntry
  exact .bind hR (.get hR) fun _ => .bind hR (.ofExcept hR _) h.record

theorem asks : Asks R := ⟨fun _ => h.send _, h.root⟩

theorem engine? (path : String) (settings : Settings) :
    Moves R (Installation.engine? path settings) := by
  have hR := h.moving
  rw [engine?_eq]
  refine .bind hR (find_moves h.logs fun _ _ => h.asks) fun found? => ?_
  cases found? with
  | none => exact .pure hR _
  | some found => exact .bind hR (h.keep found) fun _ => .pure hR _

theorem reportedEngine? (path : String) (settings : Settings) :
    Moves R (Installation.reportedEngine? path settings) := by
  have hR := h.moving
  unfold Installation.reportedEngine?
  refine .bind hR (.recover (h.engine? path settings) .module) fun outcome => ?_
  match outcome with
  | .error f => exact .bind hR (h.record _) fun _ => .pure hR _
  | .ok none => exact .bind hR (h.record _) fun _ => .pure hR _
  | .ok (some e) => exact .pure hR _

/-! ## What requests ask for -/

theorem localConfig (d : Snapshot) (settings : Settings) :
    Moves R (LocalConfiguration.find d settings) := fun w => by
  refine LocalConfiguration.find_moves h.moving (E := fun _ => True)
    (fun path => ⟨h.engine? path settings w, fun _ _ _ _ => trivial⟩) fun e path _ => ?_
  exact LocalConfiguration.withEngine_moves h.logs (fun _ => h.record _) fun file _ =>
    LocalConfiguration.ask_moves h.logs (h.call e _ _ (by decide)) (h.call e _ _ (by decide))

theorem steady (settings : Settings) :
    World.collaborators.Steady (fun _ => True) R (fun _ => True) (fun _ => True) settings where
  keeps _ _ := trivial
  localConfig d w _ := h.localConfig d settings w
  engine path w _ := ⟨h.reportedEngine? path settings w, fun _ _ _ _ => trivial⟩
  ignoreFile path w _ := ⟨IgnoreFile.find_moves h.moving path _ w, fun _ _ _ _ => trivial⟩
  fileInfo e _ _ w _ _ _ := Engine.fileInfo_moves h.moving (h.call e _ _ (by decide)) w
  languages e w _ _ := h.languages e w

/-! ## Requests -/

theorem complete (text : String) (d : Snapshot) (path : String) (request : FormatRequest)
    (outcome : Resolution) :
    Moves R (Pipeline.complete World.collaborators text d path request outcome) := by
  have hR := h.moving
  have formatted (e : Engine) (options : Fields) :
      Moves R (Pipeline.formatted World.collaborators e text options) :=
    Pipeline.formatted_moves hR h.logEntry
      (Engine.format_moves hR (h.call e _ _ (by decide)))
  intro w
  have hreached : Pipeline.Reached World.collaborators R (fun _ => True) text path request w
      (Pipeline.complete World.collaborators text d path request outcome w) :=
    Pipeline.complete_reached hR h.logEntry d (fun settings _ => h.steady settings) trivial
  cases hreached with
  | stopped hw _ => exact hw
  | formats t e parser settings config hw _ hp =>
    rw [hp]
    exact hR.trans hw (Moves.bind hR (formatted e _) (fun _ => .pure hR _) t)

theorem resume (rest : Continuation) (outcome : Resolution) : Moves R (rest.resume outcome) := by
  have hR := h.moving
  cases rest with
  | settings => exact .bind hR (.ofExcept hR _) fun _ => .pure hR _
  | engine path =>
    exact .bind hR (.ofExcept hR _) fun settings =>
      .bind hR (h.reportedEngine? path settings) fun _ => .pure hR _
  | text d path source request =>
    exact .bind hR (h.complete source d path request outcome) fun _ => .pure hR _
  | edits d path request label =>
    refine .bind hR (h.complete d.text d path request outcome) fun result =>
      .bind hR ?_ fun _ => .pure hR _
    cases label with
    | none => exact .pure hR _
    | some label =>
      unfold applyEdits
      dsimp only
      split
      · exact .pure hR _
      · exact h.send _

end World.Works

namespace World.Carries

variable {R : World → World → Prop} (h : World.Carries R)
include h

theorem fetching (w : World) (key uri : String) : R w (w.fetching key uri) :=
  h.moving.trans (h.send (.fetchSettings uri w.config.settingsSection) w)
    (h.given rfl rfl rfl rfl rfl rfl)

theorem request (r : Request) : Moves R r.run := fun w =>
  r.run_moves h.moving (r.announce_moves h.logs w)
    (fun uri => World.fetchSettings_moves h.moving.refl uri fun w key => h.fetching w key uri)
    fun rest outcome v _ _ => h.resume rest outcome v

end World.Carries

namespace Session

/-- The world of a session moves along `R`. -/
def Along (R : World → World → Prop) (s s' : Session) : Prop := R s.world s'.world

variable {R : World → World → Prop}

theorem onWorld_moves {α : Type} {x : Act World α} (hx : Moves R x) : Moves (Along R) (onWorld x) :=
  fun s => hx s.world

/-- A change of the session that leaves its world alone. -/
theorem modify_moves (hR : Moving R) {f : Session → Session} (hf : ∀ s, (f s).world = s.world) :
    Moves (Along R) (modify f : Act Session PUnit) := fun s => by
  show R s.world (f s).world
  rw [hf]
  exact hR.refl _

theorem Along.moving (hR : Moving R) : Moving (Along R) :=
  ⟨fun _ => hR.refl _, fun h h' => hR.trans h h'⟩

section
variable (h : World.Carries R)
include h

theorem changeWorld_moves {f : World → World} (hf : ∀ w, R w (f w)) :
    Moves (Along R) (changeWorld f) :=
  .bind (Along.moving h.moving) (onWorld_moves hf) fun _ => .pure (Along.moving h.moving) _

/-- A step that answers by an action on the world. -/
theorem reply_moves {α : Type} {x : Act World α} (hx : Moves R x) (f : α → Answer) :
    Moves (Along R) (do reply (f (← onWorld x))) :=
  .bind (Along.moving h.moving) (onWorld_moves hx) fun _ => .pure (Along.moving h.moving) _

theorem request_moves (r : Request) : Moves (Along R) (request r) := onWorld_moves (h.request r)

theorem formatOpen_moves (uri : String) (requestFor : Snapshot → FormatRequest) :
    Moves (Along R) (formatOpen uri requestFor) := by
  have hS := Along.moving h.moving
  unfold formatOpen
  refine .bind hS (.get hS) fun s => ?_
  split
  · exact request_moves h _
  · exact .pure hS _

theorem forceFormat_moves (arguments : Params) : Moves (Along R) (forceFormat arguments) := by
  have hS := Along.moving h.moving
  have openDocument (uri : Json) : Moves (Along R) (openDocument? uri) := by
    unfold openDocument?
    split
    · exact .pure hS _
    · split
      · exact .bind hS (.get hS) fun _ => .pure hS _
      · exact .throw hS _
      · exact .throw hS _
      · exact .pure hS _
  unfold forceFormat
  refine .bind hS (.ofExcept hS _) fun uri => .bind hS (openDocument uri) fun d? => ?_
  cases d? with
  | some d => exact request_moves h _
  | none => exact .bind hS (onWorld_moves (h.record _)) fun _ => .pure hS _

theorem engine_moves (path : String) (payload : Option Json) :
    Moves (Along R) (engine path payload) := by
  have hS := Along.moving h.moving
  unfold engine
  cases payload with
  | some payload =>
    exact .bind hS (.ofExcept hS _) fun settings =>
      reply_moves h (h.reportedEngine? path settings) _
  | none =>
    dsimp only
    split
    · exact request_moves h _
    · exact reply_moves h (h.reportedEngine? path {}) _

theorem resume_moves (fetch : Nat) : Moves (Along R) (Session.resume fetch) := fun s => by
  show R s.world (Session.resume fetch s).2.world
  rw [resume_apply]
  cases s.world.cache.outcome? fetch with
  | none => exact h.moving.refl _
  | some outcome =>
    exact (resumeTasks_resumed h.moving (J := fun _ => True) (fun _ _ => trivial)
      (fun rest u _ => h.resume rest outcome u) s.tasks trivial).1

theorem ready_moves : Moves (Along R) ready := by
  have hS := Along.moving h.moving
  unfold ready
  refine .bind hS (onWorld_moves (h.record _)) fun _ => .bind hS (.get hS) fun s => ?_
  split
  · exact .bind hS (onWorld_moves (h.send _)) fun _ => .pure hS _
  · exact .pure hS _

theorem poll_moves (id : String) : Moves (Along R) (poll id) := by
  have hS := Along.moving h.moving
  unfold poll
  refine .bind hS (.get hS) fun s => ?_
  split
  · exact .pure hS _
  · exact .bind hS (.ofExcept hS _) fun _ => .pure hS _
  · exact .pure hS _
  · exact .throw hS _

/-- Every step moves the world of its session, unless processes answer differently from then on. -/
theorem take_moves (st : Step) (hst : ∀ reply, st.core ≠ .processes reply) :
    Moves (Along R) (take st) := by
  have hS := Along.moving h.moving
  induction st with
  | start id st ih =>
    refine .bind hS (.attempt (ih hst)) fun p => .bind hS (fun s => ?_) fun _ => .pure hS _
    rw [addTask_apply]
    exact h.moving.refl _
  | connect options folders configuration =>
    refine .bind hS (fun s => h.given rfl rfl rfl rfl rfl rfl) fun _ =>
      .bind hS (onWorld_moves (h.record _)) fun _ => .bind hS (.get hS) fun _ => .pure hS _
  | ready => exact ready_moves h
  | trust params =>
    exact .bind hS (onWorld_moves (h.record _)) fun _ =>
      changeWorld_moves h fun _ => h.given rfl rfl rfl rfl rfl rfl
  | changeFolders added removed =>
    exact changeWorld_moves h fun _ => h.given rfl rfl rfl rfl rfl rfl
  | setFolders folders => exact changeWorld_moves h fun _ => h.given rfl rfl rfl rfl rfl rfl
  | changeConfiguration => exact .bind hS (onWorld_moves (h.record _)) fun _ => .pure hS _
  | shutdown => exact changeWorld_moves h fun _ => h.given rfl rfl rfl rfl rfl rfl
  | openDocument uri text languageId version =>
    exact .bind hS (modify_moves h.moving fun _ => rfl) fun _ => .pure hS _
  | closeDocument uri => exact .bind hS (modify_moves h.moving fun _ => rfl) fun _ => .pure hS _
  | format uri => exact formatOpen_moves h uri _
  | formatRange uri range => exact formatOpen_moves h uri _
  | forceFormat arguments => exact forceFormat_moves h arguments
  | provideEdits d r => exact request_moves h _
  | formatText d text r => exact request_moves h _
  | settings uri => exact request_moves h _
  | engine path payload => exact engine_moves h path payload
  | localConfig d payload =>
    exact .bind hS (.ofExcept hS _) fun settings => reply_moves h (h.localConfig d settings) _
  | ignoreFile path setting => exact reply_moves h (IgnoreFile.find_moves h.moving path setting) _
  | packageManager folderUri =>
    exact reply_moves h (askPackageManager_moves h.logs (h.send _)) _
  | client client => exact changeWorld_moves h fun _ => h.given rfl rfl rfl rfl rfl rfl
  | processes reply => exact absurd rfl (hst reply)
  | write path node => exact changeWorld_moves h fun _ => h.given rfl rfl rfl rfl rfl rfl
  | remove path => exact changeWorld_moves h fun _ => h.given rfl rfl rfl rfl rfl rfl
  | answer fetch a =>
    exact .bind hS (onWorld_moves fun _ => h.given rfl rfl rfl rfl rfl rfl) fun _ => .pure hS _
  | evict fetch => exact changeWorld_moves h fun _ => h.given rfl rfl rfl rfl rfl rfl
  | resume fetch => exact resume_moves h fetch
  | poll id => exact poll_moves h id
  | cancel id =>
    intro s
    obtain ⟨p, ts, hcancel, -⟩ := cancel_state id s
    show R s.world (cancel id s).2.world
    rw [hcancel]
    exact h.moving.refl _

end

end Session

end FormatServer
