import FormatServer.Session.Params
import FormatServer.Session.Task

/-!
# Steps of a session

A session goes on by what the client sends, by what changes around the server, and by tasks that
run in the background. The end of a settings fetch is three steps, since other steps may come between
them: the client answers, a fetch that has failed is forgotten, and those who wait for it go on.
-/

set_option autoImplicit false

namespace FormatServer

inductive Step where
  /-- The first message: options, folders, and what the client says about configuration. -/
  | connect (options : Json) (folders : List Folder) (configuration : Option Json)
  /-- The client is ready. -/
  | ready
  | trust (params : Params)
  | changeFolders (added removed : List Folder)
  | setFolders (folders : List Folder)
  | changeConfiguration
  | shutdown
  | openDocument (uri text : String) (languageId : Option String) (version : Option Int)
  | closeDocument (uri : String)
  | format (uri : String)
  | formatRange (uri : String) (range : Range)
  | forceFormat (arguments : Params)
  | provideEdits (d : Snapshot) (request : FormatRequest)
  | formatText (d : Snapshot) (text : String) (request : FormatRequest)
  | settings (uri : String)
  /-- The engine for a path, with the payload of the settings to use if there is one. -/
  | engine (path : String) (payload : Option Json)
  | localConfig (d : Snapshot) (payload : Json)
  | ignoreFile (path : String) (setting : Json)
  | packageManager (folderUri : String)
  /-- The client reacts differently from now on. -/
  | client (client : Client)
  /-- Processes answer differently from now on. -/
  | processes (reply : List Command → Command → Reply)
  | write (path : String) (node : Node)
  | remove (path : String)
  /-- The client answers a settings fetch, which ends with that. -/
  | answer (fetch : Nat) (answer : Except String Json)
  /-- The turn comes to forget a fetch that has failed. -/
  | evict (fetch : Nat)
  /-- The turn comes for those who wait for a fetch that has ended. -/
  | resume (fetch : Nat)
  /-- Another step, run in the background under a name. -/
  | start (id : String) (step : Step)
  | poll (id : String)
  | cancel (id : String)
  deriving Inhabited

/-- How a task stands. -/
inductive TaskState where
  | waiting (fetch : Nat) (rest : Continuation)
  | ended (result : Except Fault Answer)
  | cancelled
  deriving Inhabited

/-- A task with the name it was started under, if it has one. -/
structure Task where
  id : Option String
  state : TaskState
  deriving Inhabited

/-- A server with its open documents and its tasks. -/
structure Session where
  world : World := {}
  documents : List (String × Snapshot) := []
  /-- The tasks in the order in which they were started. -/
  tasks : List Task := []
  /-- The client can be asked for configuration. -/
  configurable : Bool := false
  /-- The editor is shown log records. -/
  attached : Bool := false
  deriving Inhabited

/-- What a step came to: its result, and what was sent, started and shown meanwhile. -/
structure Report where
  result : Except Fault Answer
  sent : List Message
  launches : List Launch
  shown : List (MessageType × String)

end FormatServer
