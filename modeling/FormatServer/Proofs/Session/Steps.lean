import FormatServer.Proofs.Session.Request
import FormatServer.Proofs.SettingsCache
import FormatServer.Session.Run

/-!
# What a step does

A step that is put in the background does what it does at once, and leaves a task behind
(`step_state`). Of the steps themselves some make a request, one lets tasks go on, one cancels a task,
and the others go on aside of all tasks (`take_cases`).
-/

set_option autoImplicit false

namespace FormatServer

open Act

/-- The step without the names under which it is put in the background. -/
def Step.core : Step → Step
  | .start _ st => st.core
  | st => st

theorem Step.core_core (st : Step) : st.core.core = st.core := by
  induction st with
  | start _ st ih => exact ih
  | _ => rfl

/-- The step is a message of the client, a change around the server, or a turn of its own. The others
hand settings to the server, or have it ask for a package manager, with no message that would say
so. -/
def Step.isMessage (st : Step) : Bool :=
  match st.core with
  | .engine _ (some _) => false
  | .localConfig _ _ => false
  | .packageManager _ => false
  | _ => true

/-- The message tells the client what the server wants to be told of. -/
def Message.registers : Message → Bool
  | .registerCapability _ => true
  | _ => false

/-- The step drops all settings. -/
def Step.clears (st : Step) : Bool :=
  match st.core with
  | .shutdown => true
  | _ => false

/-- The world with what the step says of surroundings, configuration, folders, trust and fetches. -/
def Step.sets (st : Step) (w : World) : World :=
  match st with
  | .connect options folders _ => { w with config := w.config.withOptions options, folders }
  | .trust params => { w with trusted := params.isTrusted }
  | .changeFolders added removed => { w with folders := Folder.update w.folders added removed }
  | .setFolders folders => { w with folders }
  | .shutdown => { w with cache := w.cache.clear }
  | .client c => { w with client := c }
  | .processes reply => { w with processes := { reply := reply } }
  | .write path node => { w with files := w.files.write path node }
  | .remove path => { w with files := w.files.remove path }
  | .answer fetch a => { w with cache := w.cache.receive fetch w.trusted a }
  | .evict fetch => { w with cache := w.cache.evict fetch }
  | _ => w

theorem Step.clears_iff {st : Step} : st.clears = true ↔ st.core = .shutdown := by
  unfold clears
  cases st.core <;> simp

theorem Step.isMessage_core (st : Step) : st.core.isMessage = st.isMessage := by
  rw [isMessage, isMessage, core_core]

theorem Step.sets_ages (st : Step) (w : World) : w.cache.Ages (st.sets w).cache := by
  cases st with
  | shutdown => exact .clear _
  | answer n a => exact .receive _ _ _ _
  | evict n => exact .evict _ _
  | _ => exact .refl _

theorem Step.sets_sound (st : Step) {w : World} (hc : w.cache.Sound) : (st.sets w).cache.Sound := by
  cases st with
  | shutdown => exact .clear
  | answer n a => exact hc.receive _ _ _
  | evict n => exact hc.evict _
  | _ => exact hc

/-- A step leaves the current fetch of a key, unless it drops all entries or forgets this one, which
has failed. -/
theorem Step.sets_current? (st : Step) {w : World} (hc : w.cache.Sound) (key : String) (n : Nat) :
    (st.sets w).cache.current? key = some n ↔ (st ≠ .shutdown ∧
      (st = .evict n → ∀ e, w.cache.outcome? n ≠ some (.error e))) ∧
        w.cache.current? key = some n := by
  cases st with
  | shutdown => exact ⟨fun h => (by cases h), fun h => absurd rfl h.1.1⟩
  | answer m a => simp [sets]
  | evict m =>
    simp only [sets, hc.current?_evict, ne_eq, reduceCtorEq, not_false_eq_true, true_and,
      Step.evict.injEq]
    rw [and_comm]
    refine and_congr_left fun _ => ⟨?_, ?_⟩
    · rintro h rfl
      exact h rfl
    · rintro h rfl
      exact h rfl
  | _ => simp [sets]

namespace Session

/-- A session before its first step. -/
def fresh (files : Files) (home : String) (client : Client)
    (reply : List Command → Command → Reply) (config : ServerConfig) (logger : Logger)
    (limits : Limits) : Session :=
  { world := { files, home, client, processes := { reply := reply }, config, logger, limits } }

/-- The request that a command makes whose arguments name a URI. -/
def forcedRequest? (s : Session) : Except Fault Json → Option Request
  | .ok (.str uri) =>
    if uri = "" then none
    else (s.documents.lookup uri).map fun d =>
      .edits d { force := true } (some "Format Document (Forced)")
  | _ => none

/-- The request that a step makes, if it makes one. -/
def requestOf (s : Session) (st : Step) : Option Request :=
  match st.core with
  | .format uri => (s.documents.lookup uri).map fun d => .edits d {} none
  | .formatRange uri range =>
    (s.documents.lookup uri).map fun d => .edits d (rangeRequest range d) none
  | .forceFormat arguments => s.forcedRequest? arguments.uri
  | .provideEdits d r => some (.edits d r none)
  | .formatText d text r => some (.text d text r)
  | .settings uri => some (.settings uri)
  | .engine path none => if Spelling.isAbsolute path then some (.engine path) else none
  | _ => none

/-! ## Steps in the background -/

/-- How a task stands that has come to an end or to a fetch. -/
def standing : Except Fault Progress → TaskState
  | .ok (.ended a) => .ended (.ok a)
  | .ok (.waiting n rest) => .waiting n rest
  | .error e => .ended (.error e)

theorem standing_ends (p : Except Fault Answer × World) :
    standing (Progress.ends p).1 = .ended p.1 := by
  unfold Progress.ends
  cases p.1 <;> rfl

/-- The session with some more tasks. -/
def adding (s : Session) (ts : List Task) : Session := { s with tasks := s.tasks ++ ts }

/-- The tasks that a step leaves behind whose core has come to `p`: none if it has ended with the
step, or else that of the core first. The others have ended. -/
inductive Leaves (p : Except Fault Progress) : Except Fault Answer → List Task → Prop
  | nothing {result : Except Fault Answer} : standing p = .ended result → Leaves p result []
  | tasks {result : Except Fault Answer} {id : Option String} {ts : List Task} :
      (∀ t ∈ ts, t.state = .ended (.ok .nothing)) → Leaves p result (⟨id, standing p⟩ :: ts)

theorem adding_adding (s : Session) (ts us : List Task) :
    (s.adding ts).adding us = s.adding (ts ++ us) := by
  simp only [adding, List.append_assoc]

theorem addTask_apply (id : Option String) (p : Except Fault Progress) (s : Session) :
    addTask id p s = (.ok (), s.adding [⟨id, standing p⟩]) := by
  match p with
  | .ok (.ended _) => rfl
  | .ok (.waiting _ _) => rfl
  | .error _ => rfl

theorem take_start (id : String) (st : Step) (s : Session) :
    take (.start id st) s =
      (.ok (.ended .nothing), (take st s).2.adding [⟨some id, standing (take st s).1⟩]) := by
  rw [take, bind_ok (attempt_apply (take st) s), bind_ok (addTask_apply _ _ _)]
  rfl

/-- A step that has a name comes to nothing and leaves the task of its core; one that has none does
what its core does. -/
theorem take_core (st : Step) (s : Session) :
    (take st s = take st.core s) ∨
      ∃ id ts, take st s =
          (.ok (.ended .nothing),
            (take st.core s).2.adding (⟨id, standing (take st.core s).1⟩ :: ts)) ∧
        ∀ t ∈ ts, t.state = .ended (.ok .nothing) := by
  induction st with
  | start id st ih =>
    right
    rw [take_start]
    obtain h | ⟨id', ts, h, hts⟩ := ih
    · rw [h]
      exact ⟨some id, [], rfl, by simp⟩
    · rw [h]
      refine ⟨id', ts ++ [⟨some id, .ended (.ok .nothing)⟩], ?_, fun t ht => ?_⟩
      · rw [adding_adding]
        rfl
      · rcases List.mem_append.1 ht with ht | ht
        · exact hts t ht
        · cases List.mem_singleton.1 ht
          rfl
  | _ => exact .inl rfl

/-- A step leaves its session as its core does, with some more tasks. -/
theorem step_state (s : Session) (st : Step) :
    ∃ ts, (step s st).1 = (take st.core s).2.adding ts ∧
      Leaves (take st.core s).1 (step s st).2.result ts := by
  have hstep : step s st = ((takeOrWait st s).2, (step s st).2) := rfl
  have hresult : (step s st).2.result = (takeOrWait st s).1 := rfl
  rw [hresult, hstep]
  unfold takeOrWait
  obtain h | ⟨id, ts, h, hts⟩ := take_core st s
  · rcases hp : take st.core s with ⟨e | ⟨a | ⟨n, rest⟩⟩, t⟩
    · rw [bind_error (h.trans hp)]
      exact ⟨[], by simp only [adding, List.append_nil], .nothing rfl⟩
    · rw [bind_ok (h.trans hp)]
      exact ⟨[], by simp only [adding, List.append_nil]; rfl, .nothing rfl⟩
    · rw [bind_ok (h.trans hp)]
      dsimp only
      rw [bind_ok (addTask_apply _ _ _)]
      exact ⟨_, rfl, .tasks (by simp)⟩
  · rw [bind_ok h]
    exact ⟨_, rfl, .tasks hts⟩

theorem step_world (s : Session) (st : Step) : (step s st).1.world = (take st.core s).2.world := by
  obtain ⟨ts, h, _⟩ := step_state s st
  rw [h]
  rfl

/-! ## Requests, and steps that make none -/

theorem core_ne_start (st : Step) (id : String) (st' : Step) : st.core ≠ .start id st' := by
  induction st with
  | start _ st ih => exact ih
  | _ => exact fun h => by cases h

/-- A step that goes on aside of all tasks. -/
structure Aside (s : Session) (st : Step) (p : Except Fault Progress × Session) : Prop where
  ends : ∃ result, standing p.1 = .ended result
  tasks : p.2.tasks = s.tasks
  documents : ∀ e ∈ p.2.documents, e ∈ s.documents ∨ e.2.uri = e.1
  cache : p.2.world.cache = (st.sets s.world).cache
  given : p.2.world.given = (st.sets s.world).given
  engines : ∀ e ∈ p.2.world.engines,
    e ∈ s.world.engines ∨ e.nodePath = s.world.config.nodePath
  sent : Adds (fun m => m.registers = true ∨ m.asksManager = true ∧ st.isMessage = false)
    s.world.journal.sent p.2.world.journal.sent
  launches : Adds (fun _ => st.isMessage = false) s.world.journal.launches p.2.world.journal.launches

theorem onWorld_apply {α : Type} (x : Act World α) (s : Session) :
    onWorld x s = ((x s.world).1, { s with world := (x s.world).2 }) := rfl

/-- A step that answers by an action on the world. -/
theorem reply_apply {α : Type} (x : Act World α) (f : α → Answer) (s : Session) :
    (do reply (f (← onWorld x))) s =
      ((x s.world).1.map fun a => .ended (f a), { s with world := (x s.world).2 }) := by
  rw [bind_apply, onWorld_apply]
  cases (x s.world).1 <;> rfl

theorem standing_map {α : Type} (f : α → Answer) (r : Except Fault α) :
    standing (r.map fun a => .ended (f a)) = .ended (r.map f) := by
  cases r <;> rfl

namespace Aside

variable {s : Session} {st : Step}

theorem trusted {p : Except Fault Progress × Session} (h : Aside s st p) :
    p.2.world.trusted = s.world.trusted ∨
      ∃ params, st = .trust params ∧ p.2.world.trusted = params.isTrusted := by
  have htrusted : p.2.world.given.trusted = (st.sets s.world).given.trusted := by rw [h.given]
  cases st with
  | trust params => exact .inr ⟨params, rfl, htrusted⟩
  | _ => exact .inl htrusted

/-- A step that changes the world within the frame. -/
theorem ofFrame {p : Except Fault Progress} {w : World} (hend : ∃ result, standing p = .ended result)
    (hsets : st.sets s.world = s.world)
    (hw : World.Frame (fun m => m.asksManager = true ∧ st.isMessage = false)
      (fun _ => st.isMessage = false) s.world w) : Aside s st (p, { s with world := w }) where
  ends := hend
  tasks := rfl
  documents _ he := .inl he
  cache := by
    rw [hsets]
    exact hw.cache
  given := by
    rw [hsets]
    exact hw.given
  engines := hw.engines
  sent := hw.sent.mono fun _ => .inr
  launches := hw.launches

/-- A step that answers by an action on the world within the frame. -/
theorem ofReply {α : Type} {x : Act World α} {f : α → Answer} (hsets : st.sets s.world = s.world)
    (hx : World.Frame (fun m => m.asksManager = true ∧ st.isMessage = false)
      (fun _ => st.isMessage = false) s.world (x s.world).2) :
    Aside s st ((do reply (f (← onWorld x))) s) := by
  rw [reply_apply]
  exact ofFrame ⟨_, standing_map _ _⟩ hsets hx

/-- A step that changes the session in what `Aside` does not speak of, and in what it sets. -/
theorem ofState {a : Answer} {t : Session} (htasks : t.tasks = s.tasks)
    (hdocuments : t.documents = s.documents) (hcache : t.world.cache = (st.sets s.world).cache)
    (hgiven : t.world.given = (st.sets s.world).given) (hengines : t.world.engines = s.world.engines)
    (hsent : t.world.journal.sent = s.world.journal.sent)
    (hlaunches : t.world.journal.launches = s.world.journal.launches) :
    Aside s st (.ok (.ended a), t) where
  ends := ⟨_, rfl⟩
  tasks := htasks
  documents _ he := .inl (hdocuments ▸ he)
  cache := hcache
  given := hgiven
  engines _ he := .inl (hengines ▸ he)
  sent := .ofEq hsent
  launches := .ofEq hlaunches

theorem ofThrow (e : Fault) (hsets : st.sets s.world = s.world) : Aside s st (.error e, s) :=
  .ofFrame ⟨_, rfl⟩ hsets (World.Frame.moving.refl _)

end Aside

/-- What a step does that makes the request `r?`, or that goes on aside. -/
def Takes (s : Session) (st : Step) (r? : Option Request) : Prop :=
  (∃ r, r? = some r ∧ take st s = request r s) ∨ r? = none ∧ Aside s st (take st s)

theorem takes_open {s : Session} {st : Step} (hsets : st.sets s.world = s.world) {uri : String}
    {requestFor : Snapshot → FormatRequest} (h : take st = formatOpen uri requestFor) :
    Takes s st ((s.documents.lookup uri).map fun d => .edits d (requestFor d) none) := by
  unfold Takes
  rw [h, formatOpen, bind_ok (rfl : (get : Act Session Session) s = (.ok s, s))]
  cases s.documents.lookup uri with
  | some d => exact .inl ⟨_, rfl, rfl⟩
  | none => exact .inr ⟨rfl, .ofState rfl rfl (by rw [hsets]) (by rw [hsets]) rfl rfl rfl⟩

theorem takes_forceFormat (s : Session) (arguments : Params) :
    Takes s (.forceFormat arguments) (s.forcedRequest? arguments.uri) := by
  have unnamed : ∀ uri, Aside s (.forceFormat arguments) ((do
      onWorld (World.log Level.warning
        ("Cannot force format " ++ Json.display uri ++ ": document is not open"))
      reply (.edits []) : Act Session Progress) s) := fun uri =>
    .ofState rfl rfl rfl rfl rfl rfl rfl
  have htake : take (.forceFormat arguments) s = forceFormat arguments s := rfl
  unfold forceFormat at htake
  cases huri : arguments.uri with
  | error e =>
    rw [huri] at htake
    exact .inr ⟨rfl, by rw [htake]; exact .ofThrow e rfl⟩
  | ok uri =>
    rw [huri, bind_ok (rfl : Act.ofExcept (.ok uri) s = (.ok uri, s))] at htake
    have absent : openDocument? uri s = (.ok none, s) → Takes s (.forceFormat arguments) none :=
      fun h => .inr ⟨rfl, by rw [htake, bind_ok h]; exact unnamed uri⟩
    have refused : openDocument? uri s = (.error .notAName, s) →
        Takes s (.forceFormat arguments) none :=
      fun h => .inr ⟨rfl, by rw [htake, bind_error h]; exact .ofThrow _ rfl⟩
    cases uri with
    | str u =>
      by_cases hu : u = ""
      · rw [show s.forcedRequest? (.ok (.str u)) = none from if_pos hu]
        exact absent (by rw [hu]; rfl)
      · rw [show s.forcedRequest? (.ok (.str u)) = (s.documents.lookup u).map _ from if_neg hu]
        have hopen : openDocument? (.str u) s = (.ok (s.documents.lookup u), s) := by
          have ht : (!(Json.str u).truthy) = false := by simpa [Json.truthy] using hu
          unfold openDocument?
          rw [ht]
          rfl
        cases hd : s.documents.lookup u with
        | none => exact absent (by rw [hopen, hd])
        | some d => exact .inl ⟨_, rfl, by rw [htake, bind_ok (hopen.trans (by rw [hd]))]⟩
    | arr items =>
      cases items with
      | nil => exact absent rfl
      | cons _ _ => exact refused rfl
    | obj fields =>
      cases fields with
      | nil => exact absent rfl
      | cons _ _ => exact refused rfl
    | _ => exact absent (by unfold openDocument?; split <;> rfl)

theorem takes_engine (s : Session) (path : String) :
    Takes s (.engine path none) (if Spelling.isAbsolute path then some (.engine path) else none) := by
  have hs : take (.engine path none) s = (if Spelling.isAbsolute path then request (.engine path)
      else do reply (.engine (← onWorld (Installation.reportedEngine? path {})))) s := rfl
  unfold Takes
  rw [hs]
  split
  · exact .inl ⟨_, rfl, rfl⟩
  · refine .inr ⟨rfl, .ofReply rfl ?_⟩
    have hR := World.Frame.moving (M := fun m => m.asksManager = true ∧
      Step.isMessage (.engine path none) = false) (L := fun _ =>
      Step.isMessage (.engine path none) = false)
    refine (Installation.reportedEngine_runs (P := fun _ => True) hR .weaken
      ⟨?_, fun _ _ _ _ => trivial⟩).moves
    exact Installation.find_frame (fun _ h => by cases h) s.world

/-- A step that is given settings and answers by an action on the world. -/
theorem given_aside {α : Type} {s : Session} {st : Step} {payload : Json}
    {x : Settings → Act World α} {f : α → Answer}
    (hsets : st.sets s.world = s.world)
    (htake : take st s = (do
      let settings ← Act.ofExcept (Settings.ofClient payload)
      reply (f (← onWorld (x settings))) : Act Session Progress) s)
    (hx : ∀ settings, World.Frame (fun m => m.asksManager = true ∧ st.isMessage = false)
      (fun _ => st.isMessage = false) s.world (x settings s.world).2) : Aside s st (take st s) := by
  rw [htake]
  cases Settings.ofClient payload with
  | error e => exact .ofThrow e hsets
  | ok settings => exact .ofReply hsets (hx settings)

theorem poll_aside (s : Session) (id : String) : Aside s (.poll id) (take (.poll id) s) := by
  have htake : take (.poll id) s = poll id s := rfl
  rw [htake, poll, bind_ok (rfl : (get : Act Session Session) s = (.ok s, s))]
  cases (s.task? id).map Task.state with
  | none => exact .ofThrow _ rfl
  | some state =>
    cases state with
    | waiting _ _ => exact .ofState rfl rfl rfl rfl rfl rfl rfl
    | cancelled => exact .ofState rfl rfl rfl rfl rfl rfl rfl
    | ended result =>
      cases result with
      | ok a => exact .ofState rfl rfl rfl rfl rfl rfl rfl
      | error e => exact .ofThrow e rfl

theorem ready_aside (s : Session) : Aside s .ready (take .ready s) := by
  have hs : take .ready s = (do
      if s.configurable then
        onWorld (World.send (.registerCapability ["workspace/didChangeConfiguration"]))
      reply .nothing : Act Session Progress)
        (onWorld (World.log Level.info "onInitialized") s).2 := rfl
  rw [hs]
  cases s.configurable with
  | false => exact .ofState rfl rfl rfl rfl rfl rfl rfl
  | true =>
    exact ⟨⟨_, rfl⟩, rfl, fun _ he => .inl he, rfl, rfl, fun _ => .inl, .one (.inl rfl), .nothing⟩

/-- A step is a request, lets tasks go on, cancels a task, or goes on aside of all this. -/
theorem take_cases (s : Session) (st : Step) :
    (∃ n, st.core = .resume n) ∨ (∃ id, st.core = .cancel id) ∨
      Takes s st.core (s.requestOf st) := by
  have hne := core_ne_start st
  unfold requestOf
  generalize st.core = c at hne ⊢
  have aside : Aside s c (take c s) →
      (∃ n, c = .resume n) ∨ (∃ id, c = .cancel id) ∨ Takes s c none := fun h =>
    .inr (.inr (.inr ⟨rfl, h⟩))
  cases c with
  | start id st' => exact absurd rfl (hne id st')
  | resume n => exact .inl ⟨n, rfl⟩
  | cancel id => exact .inr (.inl ⟨id, rfl⟩)
  | provideEdits d r => exact .inr (.inr (.inl ⟨_, rfl, rfl⟩))
  | formatText d text r => exact .inr (.inr (.inl ⟨_, rfl, rfl⟩))
  | settings uri => exact .inr (.inr (.inl ⟨_, rfl, rfl⟩))
  | format uri => exact .inr (.inr (takes_open rfl rfl))
  | formatRange uri range => exact .inr (.inr (takes_open rfl rfl))
  | forceFormat arguments => exact .inr (.inr (takes_forceFormat s arguments))
  | engine path payload? =>
    cases payload? with
    | none => exact .inr (.inr (takes_engine s path))
    | some payload =>
      refine aside (given_aside rfl rfl fun settings => ?_)
      exact ((World.formats (fun _ => ⟨rfl, rfl⟩) settings).steady.engine path s.world
        trivial).moves.mono (fun _ => id) fun _ _ => rfl
  | localConfig d payload =>
    refine aside (given_aside rfl rfl fun settings => ?_)
    exact ((World.formats (fun _ => ⟨rfl, rfl⟩) settings).steady.localConfig d s.world
      trivial).mono (fun _ => id) fun _ _ => rfl
  | ignoreFile path setting =>
    exact aside (.ofReply rfl (IgnoreFile.find_frame path setting s.world))
  | packageManager folderUri =>
    exact aside (.ofReply rfl (askPackageManager_frame ⟨rfl, rfl⟩ s.world))
  | poll id => exact aside (poll_aside s id)
  | openDocument uri text languageId version =>
    refine aside ⟨⟨_, rfl⟩, rfl, fun e he => ?_, rfl, rfl, fun _ => .inl, .nothing, .nothing⟩
    rcases List.mem_cons.1 he with he | he
    · rw [he]
      exact .inr rfl
    · exact .inl (List.mem_filter.1 he).1
  | closeDocument uri =>
    refine aside ⟨⟨_, rfl⟩, rfl, fun e he => ?_, rfl, rfl, fun _ => .inl, .nothing, .nothing⟩
    exact .inl (List.mem_filter.1 he).1
  | ready => exact aside (ready_aside s)
  | trust params =>
    exact aside ⟨⟨_, rfl⟩, rfl, fun _ he => .inl he, rfl, rfl, fun _ => .inl, .nothing, .nothing⟩
  | shutdown =>
    exact aside ⟨⟨_, rfl⟩, rfl, fun _ he => .inl he, rfl, rfl, fun _ => .inl, .nothing, .nothing⟩
  | _ => exact aside (.ofState rfl rfl rfl rfl rfl rfl rfl)

/-! ## Runs -/

/-- What every step keeps, every run keeps. -/
theorem run_invariant {P : Session → Prop} {Q : Step → Prop}
    (hstep : ∀ s st, Q st → P s → P (step s st).1) {s : Session} {sts : List Step}
    (hs : P s) (hsts : ∀ st ∈ sts, Q st) : P (run s sts).1 := by
  induction sts generalizing s with
  | nil => exact hs
  | cons st sts ih =>
    refine ih (hstep s st (hsts st List.mem_cons_self) hs) fun st' h => ?_
    exact hsts st' (List.mem_cons_of_mem st h)

end Session

end FormatServer
