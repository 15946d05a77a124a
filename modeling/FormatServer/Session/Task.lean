import FormatServer.Engine.Call
import FormatServer.IgnoreFile
import FormatServer.LocalConfiguration
import FormatServer.Pipeline

/-!
# Tasks that wait for settings

Whatever needs the settings of a document waits for them at one point. Before it a task announces
itself; after it the task runs to its end. What is left to do at that point is a `Continuation`.
-/

set_option autoImplicit false

namespace FormatServer

/-- The collaborators of the pipeline in a server. -/
def World.collaborators : Collaborators World Engine where
  log := World.logEntry
  localConfig := LocalConfiguration.find
  engine := Installation.reportedEngine?
  ignoreFile := IgnoreFile.find
  fileInfo := Engine.fileInfo
  languages := Engine.languageTable
  format := Engine.format

/-- What a server answers to one message. -/
inductive Answer where
  | nothing
  | edits (edits : List TextEdit)
  | text (text : Option String)
  | settings (settings : Settings)
  | engine (engine : Option Engine)
  | localConfig (config : LocalConfig)
  | path (path : Option String)
  | connected (config : ServerConfig) (configurable : Bool)
  /-- A fetch has been answered. -/
  | answered
  /-- A task is still waiting. -/
  | pending
  /-- A task was cancelled. -/
  | cancelled
  /-- A task has ended with an answer. -/
  | finished (answer : Answer)
  /-- A task was still waiting when it was to be cancelled. -/
  | wasWaiting (yes : Bool)
  deriving Inhabited

/-- What needs the settings of a document. -/
inductive Request where
  /-- The settings themselves. -/
  | settings (uri : String)
  /-- The engine for a path. -/
  | engine (path : String)
  /-- The formatted form of a text. -/
  | text (d : Snapshot) (source : String) (request : FormatRequest)
  /-- Edits of a document, which the client is told to apply if a label is given. -/
  | edits (d : Snapshot) (request : FormatRequest) (label : Option String)
  deriving Inhabited

/-- What is left to do once the settings are there. -/
inductive Continuation where
  | settings
  | engine (path : String)
  | text (d : Snapshot) (path source : String) (request : FormatRequest)
  | edits (d : Snapshot) (path : String) (request : FormatRequest) (label : Option String)
  deriving Inhabited

/-- What a request does before it needs the settings: the URI to fetch them for, and the rest. -/
def Request.announce : Request → Act World (String × Continuation)
  | .settings uri => return (uri, .settings)
  | .engine path => return (← Act.ofExcept (Uri.ofPath path), .engine path)
  | .text d source request => do
    let path ← Pipeline.announce World.collaborators d
    return (d.uri, .text d path source request)
  | .edits d request label => do
    let path ← Pipeline.announce World.collaborators d
    return (d.uri, .edits d path request label)

/-- Tells the client to apply edits, if there are any. -/
def applyEdits (d : Snapshot) (edits : List TextEdit) : Option String → Act World Unit
  | some label => if edits.isEmpty then return () else World.send (.applyEdit label d.uri edits)
  | none => return ()

/-- Goes on with the settings of the document. -/
def Continuation.resume (outcome : Resolution) : Continuation → Act World Answer
  | .settings => return .settings (← Act.ofExcept outcome)
  | .engine path => do
    return .engine (← Installation.reportedEngine? path (← Act.ofExcept outcome))
  | .text d path source request =>
    return .text (← Pipeline.complete World.collaborators source d path request outcome)
  | .edits d path request label => do
    let result ← Pipeline.complete World.collaborators d.text d path request outcome
    let edits := Pipeline.editsFor d result
    applyEdits d edits label
    return .edits edits

/-- How far a task has come: to its answer, or to a fetch it waits for. -/
inductive Progress where
  | ended (answer : Answer)
  | waiting (fetch : Nat) (rest : Continuation)
  deriving Inhabited

/-- Runs a request as far as it gets. -/
def Request.run (r : Request) : Act World Progress := do
  let (uri, rest) ← r.announce
  match ← Act.recover .settings (World.fetchSettings uri) with
  | .error f => return .ended (← rest.resume (.error (.failure f)))
  | .ok n =>
    match (← get).cache.outcome? n with
    | some outcome => return .ended (← rest.resume outcome)
    | none => return .waiting n rest

end FormatServer
