import FormatServer.Session.Step

/-!
# Running a session

Each step runs to its end or to a settings fetch that the client has not answered. A settings fetch is
the one thing that a task waits for with other steps in between; a process, and the client's answer
about a package manager, it waits for within its step. When the turn of the tasks comes that wait for
a fetch, they go on in the order in which they were started.
-/

set_option autoImplicit false

namespace FormatServer.Session

/-- An action on the world of a session. -/
def onWorld {α : Type} (x : Act World α) : Act Session α :=
  ExceptT.mk fun s =>
    let (r, w) := x s.world
    (r, { s with world := w })

/-- Runs a request on the world. -/
def request (r : Request) : Act Session Progress := onWorld r.run

/-- Ends with an answer at once. -/
def reply (a : Answer) : Act Session Progress := return .ended a

/-- Changes the world and answers nothing. -/
def changeWorld (f : World → World) : Act Session Progress := do
  onWorld (modify f)
  reply .nothing

/-! ## Messages -/

/-- The first message: the editor is shown records from now on. -/
def connect (options : Json) (folders : List Folder) (configuration : Option Json) :
    Act Session Progress := do
  modify fun s => { s with
    attached := true
    configurable := (configuration.map Json.truthy).getD false
    world := { s.world with config := s.world.config.withOptions options, folders } }
  onWorld (World.log Level.info "onInitialize")
  let s ← get
  reply (.connected s.world.config s.configurable)

/-- The client is ready: the server asks to be told of configuration changes if it can be. -/
def ready : Act Session Progress := do
  onWorld (World.log Level.info "onInitialized")
  if (← get).configurable then
    onWorld (World.send (.registerCapability ["workspace/didChangeConfiguration"]))
  reply .nothing

/-- Trust is granted or withdrawn. -/
def trust (params : Params) : Act Session Progress := do
  let trusted := params.isTrusted
  onWorld (World.log Level.info
    ("Workspace trust changed: " ++ if trusted then "trusted" else "untrusted"))
  changeWorld fun w => { w with trusted }

/-- Formats an open document; one that is not open has no edits. -/
def formatOpen (uri : String) (requestFor : Snapshot → FormatRequest) : Act Session Progress := do
  match (← get).documents.lookup uri with
  | some d => request (.edits d (requestFor d) none)
  | none => reply (.edits [])

/-- The request for a range of a document. -/
def rangeRequest (range : Range) (d : Snapshot) : FormatRequest :=
  { rangeStart := some (d.utf16OffsetAt range.start)
    rangeEnd := some (d.utf16OffsetAt range.stop) }

/-- The open document that a URI in command arguments names. -/
def openDocument? (uri : Json) : Act Session (Option Snapshot) := do
  if !uri.truthy then return none
  else
    match uri with
    | .str s => return (← get).documents.lookup s
    | .arr _ => throw .notAName
    | .obj _ => throw .notAName
    | _ => return none

/-- Formats an open document whether or not it is ignored, and tells the client to apply it. -/
def forceFormat (arguments : Params) : Act Session Progress := do
  let uri ← Act.ofExcept arguments.uri
  match ← openDocument? uri with
  | some d => request (.edits d { force := true } (some "Format Document (Forced)"))
  | none =>
    onWorld (World.log Level.warning
      ("Cannot force format " ++ uri.display ++ ": document is not open"))
    reply (.edits [])

/-- The engine for a path: with the settings given, or with those of the file at the path; a path
that is not absolute has the default ones. -/
def engine (path : String) (payload : Option Json) : Act Session Progress := do
  match payload with
  | some p =>
    let settings ← Act.ofExcept (Settings.ofClient p)
    reply (.engine (← onWorld (Installation.reportedEngine? path settings)))
  | none =>
    if Spelling.isAbsolute path then request (.engine path)
    else reply (.engine (← onWorld (Installation.reportedEngine? path {})))

/-- The local configuration of a document under given settings. -/
def localConfig (d : Snapshot) (payload : Json) : Act Session Progress := do
  let settings ← Act.ofExcept (Settings.ofClient payload)
  reply (.localConfig (← onWorld (LocalConfiguration.find d settings)))

/-! ## Tasks -/

/-- Lets a task that waits for a fetch go on with its outcome. -/
def resumeTask (fetch : Nat) (outcome : Resolution) (world : World) (t : Task) : World × Task :=
  match t.state with
  | .waiting n rest =>
    if n = fetch then
      let (result, world) := rest.resume outcome world
      (world, { t with state := .ended result })
    else (world, t)
  | _ => (world, t)

/-- Lets all tasks that wait for a fetch go on, in order. -/
def resumeTasks (fetch : Nat) (outcome : Resolution) : World → List Task → World × List Task
  | world, [] => (world, [])
  | world, t :: ts =>
    let (world, t) := resumeTask fetch outcome world t
    let (world, ts) := resumeTasks fetch outcome world ts
    (world, t :: ts)

/-- The client answers a fetch. -/
def answer (fetch : Nat) (answer : Except String Json) : Act Session Progress := do
  onWorld <| modify fun w => { w with cache := w.cache.receive fetch w.trusted answer }
  reply .answered

/-- Those who wait for a fetch go on if it has ended. -/
def resume (fetch : Nat) : Act Session Progress := do
  let s ← get
  match s.world.cache.outcome? fetch with
  | some outcome =>
    let (world, tasks) := resumeTasks fetch outcome s.world s.tasks
    set { s with world, tasks }
  | none => pure ()
  reply .nothing

/-- The latest task under a name. -/
def task? (s : Session) (id : String) : Option Task :=
  s.tasks.reverse.find? fun t => t.id = some id

/-- How a task stands. -/
def poll (id : String) : Act Session Progress := do
  match ((← get).task? id).map Task.state with
  | some (.waiting _ _) => reply .pending
  | some (.ended result) => reply (.finished (← Act.ofExcept result))
  | some .cancelled => reply .cancelled
  | none => throw .unknownTask

/-- Cancels the latest of some tasks under a name, if it is still waiting. The tasks come latest
first. -/
def cancelIn (id : String) : List Task → List Task × Bool
  | [] => ([], false)
  | t :: ts =>
    if t.id = some id then
      match t.state with
      | .waiting _ _ => ({ t with state := .cancelled } :: ts, true)
      | _ => (t :: ts, false)
    else
      let (ts, found) := cancelIn id ts
      (t :: ts, found)

/-- Cancels a task, but not the fetch it waits for. -/
def cancel (id : String) : Act Session Progress := do
  let s ← get
  if (s.task? id).isNone then throw .unknownTask
  let (tasks, found) := cancelIn id s.tasks.reverse
  set { s with tasks := tasks.reverse }
  reply (.wasWaiting found)

/-- Adds a task with what it has come to. -/
def addTask (id : Option String) : Except Fault Progress → Act Session Unit
  | .ok (.ended a) => add (.ended (.ok a))
  | .ok (.waiting n rest) => add (.waiting n rest)
  | .error e => add (.ended (.error e))
where
  add (state : TaskState) : Act Session Unit :=
    modify fun s => { s with tasks := s.tasks ++ [{ id := id, state := state }] }

/-! ## Steps -/

/-- Takes one step as far as it gets. -/
def take : Step → Act Session Progress
  | .connect options folders configuration => connect options folders configuration
  | .ready => ready
  | .trust params => trust params
  | .changeFolders added removed =>
    changeWorld fun w => { w with folders := Folder.update w.folders added removed }
  | .setFolders folders => changeWorld fun w => { w with folders }
  | .changeConfiguration => do
    onWorld (World.log Level.debug "Configuration changed")
    reply .nothing
  | .shutdown => changeWorld fun w => { w with cache := w.cache.clear }
  | .openDocument uri text languageId version => do
    modify fun s => { s with
      documents := (uri, Snapshot.ofOpenDocument uri text languageId version) ::
        s.documents.filter (·.1 ≠ uri) }
    reply .nothing
  | .closeDocument uri => do
    modify fun s => { s with documents := s.documents.filter (·.1 ≠ uri) }
    reply .nothing
  | .format uri => formatOpen uri fun _ => {}
  | .formatRange uri range => formatOpen uri (rangeRequest range)
  | .forceFormat arguments => forceFormat arguments
  | .provideEdits d r => request (.edits d r none)
  | .formatText d text r => request (.text d text r)
  | .settings uri => request (.settings uri)
  | .engine path payload => engine path payload
  | .localConfig d payload => localConfig d payload
  | .ignoreFile path setting => do
    reply (.path (← onWorld (IgnoreFile.find path setting)))
  | .packageManager folderUri => do
    reply (.path (← onWorld (World.askPackageManager folderUri)))
  | .client client => changeWorld fun w => { w with client }
  | .processes reply => changeWorld fun w => { w with processes := { reply := reply } }
  | .write path node => changeWorld fun w => { w with files := w.files.write path node }
  | .remove path => changeWorld fun w => { w with files := w.files.remove path }
  | .answer fetch a => answer fetch a
  | .evict fetch => changeWorld fun w => { w with cache := w.cache.evict fetch }
  | .resume fetch => resume fetch
  | .start id step => do
    addTask (some id) (← Act.attempt (take step))
    reply .nothing
  | .poll id => poll id
  | .cancel id => cancel id

/-- Takes one step; if it has to wait it goes on in the background without a name. -/
def takeOrWait (step : Step) : Act Session Answer := do
  match ← take step with
  | .ended a => return a
  | .waiting n rest =>
    addTask none (.ok (.waiting n rest))
    return .pending

/-- Records that the editor is shown. -/
def shown (s : Session) (records : List LogRecord) : List (MessageType × String) :=
  if s.attached then (records.filter (·.passes s.world.logger.threshold)).map LogRecord.shown else []

/-- One step with its report. -/
def step (s : Session) (st : Step) : Session × Report :=
  let before := s.world.journal
  let (result, s) := takeOrWait st s
  let after := s.world.journal
  (s, {
    result
    sent := after.sent.drop before.sent.length
    launches := after.launches.drop before.launches.length
    shown := s.shown (after.records.drop before.records.length) })

/-- All steps one after another. -/
def run (s : Session) : List Step → Session × List Report
  | [] => (s, [])
  | st :: sts =>
    let (s, report) := step s st
    let (s, reports) := run s sts
    (s, report :: reports)

end FormatServer.Session
