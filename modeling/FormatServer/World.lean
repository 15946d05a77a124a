import FormatServer.Act
import FormatServer.Edit.Text
import FormatServer.Engine.Language
import FormatServer.Engine.Process
import FormatServer.Files
import FormatServer.Json.Display
import FormatServer.Json.Limits
import FormatServer.Log
import FormatServer.ServerConfig
import FormatServer.SettingsCache
import FormatServer.Text.Utf8
import FormatServer.Workspace.Folder

/-!
# The world of a server

What a server knows and what surrounds it: files, client and processes, and how far values are read
and rendered; its configuration, logger, trust and folders; what it has cached; and the journal of
what it sent, started and logged.
-/

set_option autoImplicit false

namespace FormatServer

/-- A request that the server sends to the client. -/
inductive Message where
  | fetchSettings (uri : String) (settingsSection : Json)
  | askPackageManager (folderUri : String)
  | registerCapability (methods : List String)
  | applyEdit (label uri : String) (edits : List TextEdit)
  deriving Inhabited

/-- How the client reacts to a settings fetch. -/
inductive SettingsAnswer where
  | pending
  | answered (answer : Except String Json)

/-- The client: its reaction to each settings fetch, by number and URI, and to each package manager
question, by the messages sent before it and the folder. -/
structure Client where
  settings : Nat → String → SettingsAnswer
  packageManager : List Message → String → Except String Json

instance : Inhabited Client :=
  ⟨⟨fun _ _ => .answered (.ok .null), fun _ _ => .ok .null⟩⟩

/-- A formatter that has been found: the module, the runtime it runs in and its version. -/
structure Engine where
  modulePath : String
  nodePath : Json := .str "node"
  version : Option String := none
  deriving Inhabited

/-- What a server has done, oldest first. -/
structure Journal where
  sent : List Message := []
  launches : List Launch := []
  records : List LogRecord := []
  deriving Inhabited

structure World where
  files : Files := {}
  home : String := "/"
  client : Client := default
  processes : Processes := default
  limits : Limits := {}
  logger : Logger := {}
  config : ServerConfig := {}
  trusted : Bool := false
  folders : List Folder := []
  cache : SettingsCache := {}
  engines : List Engine := []
  /-- The language tables read so far, by module path. -/
  languages : List (String × List Language) := []
  globalRoots : List (String × Option String) := []
  journal : Journal := {}
  deriving Inhabited

namespace World

/-- How trust is described. -/
def describeTrust (trusted : Bool) : String :=
  "TrustState(trusted=" ++ (Json.bool trusted).represent ++ ")"

/-- Logs a record. -/
def record (r : LogRecord) : Act World Unit :=
  modify fun w => { w with journal := { w.journal with records := w.journal.records ++ [r] } }

/-- Logs a message at a level. -/
def log (level : Int) (message : String) : Act World Unit := record ⟨level, message⟩

/-- Logs an entry with its data. -/
def logEntry (e : LogEntry) : Act World Unit := do
  let w ← get
  record (← Act.ofExcept (e.record w.logger w.limits))

/-- Sends a message to the client. -/
def send (m : Message) : Act World Unit :=
  modify fun w => { w with journal := { w.journal with sent := w.journal.sent ++ [m] } }

/-- Starts a command, gives it `stdin` to read and waits for its end. -/
def start (command : Command) (stdin : Option Json) : Act World Reply := do
  let w ← get
  let reply := w.processes.reply w.processes.started command
  let read := match reply with
    | .finished _ _ _ => stdin
    | _ => none
  set { w with
    processes := { w.processes with started := w.processes.started ++ [command] }
    journal := { w.journal with
      launches := w.journal.launches ++ [(⟨command, read⟩ : Launch)] } }
  return reply

/-- Asks the client for the package manager of a folder; none if it fails or names none. -/
def askPackageManager (folderUri : String) : Act World (Option String) := do
  let w ← get
  send (.askPackageManager folderUri)
  match w.client.packageManager w.journal.sent folderUri with
  | .error reason =>
    log Level.debug ("Package manager lookup failed for " ++ folderUri ++ ": " ++ reason)
    return none
  | .ok (.str s) => return if s = "" then none else some s
  | .ok _ => return none

/-- The key under which the settings of a URI are kept: the path of a file, or the URI itself. -/
def settingsKey (uri : String) : Except Fault String :=
  if "file:".toList.isPrefixOf uri.toList then
    (Uri.toPath uri).map fun p => if p = "" then uri else p
  else .ok uri

/-- The fetch that resolves the settings of a URI, sent now if there is none. One that cannot be sent
is a failure at once and leaves no trace. -/
def fetchSettings (uri : String) : Act World Nat := do
  let key ← Act.ofExcept (settingsKey uri)
  let w ← get
  match w.cache.current? key with
  | some n => return n
  | none =>
    match w.config.sectionRefusal? with
    | some reason => Act.fail (.settings reason uri)
    | none =>
      let n := w.cache.fetches.length + 1
      send (.fetchSettings uri w.config.settingsSection)
      modify fun w => { w with cache := w.cache.send key uri }
      match w.client.settings n uri with
      | .pending => return n
      | .answered answer =>
        modify fun w => { w with cache := (w.cache.receive n w.trusted answer).evict n }
        return n

end World

end FormatServer
