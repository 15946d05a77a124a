import FormatServer.Engine.Answer
import FormatServer.Json.Reader
import FormatServer.World

/-!
# Calls into the engine

One call is one process: the payload goes to its standard input, and the result comes back as the
`result` of an object on its standard output.
-/

set_option autoImplicit false

namespace FormatServer.Engine

open World

/-- A failure of this engine. -/
def failure (e : Engine) (message : String) : Failure :=
  { stage := .engine, message, path := some e.modulePath }

/-- The engine's runtime could not be started. -/
def notStarted (e : Engine) (reason : String) : Failure :=
  { e.failure ("Could not start Node.js (" ++ e.nodePath.display ++ "): " ++ reason) with
    hint := some "Install Node.js or set PRETTIER_LS_NODE_PATH." }

/-- A call that ended with a non-zero exit code. -/
def callFailed (e : Engine) (method stderr : String) (exitCode : Int) : Failure :=
  let shown := Text.trim stderr.toList
  let reason := if shown.isEmpty then "no output" else String.ofList shown
  { e.failure ("prettier." ++ method ++ " failed: " ++ reason) with
    stderr, exitCode := some exitCode }

/-- A call that printed no JSON. -/
def badOutput (e : Engine) (method stderr : String) (exitCode : Int) : Failure :=
  { e.failure ("prettier." ++ method ++ " returned invalid output") with
    stderr, exitCode := some exitCode }

/-- What a call that ran to its end comes to. -/
def resultOf (e : Engine) (limits : Limits) (method : String) (stdout stderr : List UInt8)
    (exitCode : Int) : Except Fault Json :=
  let stderr := String.ofList (Text.decodeLossy stderr)
  if exitCode ≠ 0 then .error (.failure (e.callFailed method stderr exitCode))
  else
    match (Text.decode? stdout).elim (.error .malformed) (Json.Reader.read limits) with
    | .error .malformed => .error (.failure (e.badOutput method stderr exitCode))
    | .error (.tooDeep container) => .error (.nestedTooDeep container)
    | .ok (.obj fields) => .ok ((Fields.get? fields "result").getD .null)
    | .ok v => .error (.answerNotAnObject v.kind)

/-- Calls a method and returns its result. -/
def call (e : Engine) (method : String) (payload : Json) : Act World Json := do
  log Level.debug ("Calling prettier." ++ method ++ " from " ++ e.modulePath)
  match ← start (.node e.nodePath e.modulePath method) (some payload) with
  | .notStarted reason => Act.fail (e.notStarted reason)
  | .malformed reason => throw (.commandMalformed reason)
  | .finished stdout stderr exitCode =>
    Act.ofExcept (e.resultOf (← get).limits method stdout stderr exitCode)

/-- The formatted text. -/
def format (e : Engine) (text : String) (options : Fields) : Act World String := do
  match ← e.call "format" (.obj [("text", .str text), ("options", .obj options)]) with
  | .str s => return s
  | _ => Act.fail (e.failure "prettier.format did not return text")

/-- Whether a path is ignored, and its parser. -/
def fileInfo (e : Engine) (path : String) (options : Fields) : Act World FileInfo := do
  let answer ← e.call "getFileInfo" (.obj [("path", .str path), ("options", .obj options)])
  Act.ofExcept (FileInfo.ofEngine answer)

/-- The engine's languages; once read they are kept. -/
def languageTable (e : Engine) : Act World (List Language) := do
  match (← get).languages.lookup e.modulePath with
  | some table => return table
  | none =>
    let answer ← e.call "getSupportInfo" (.obj [])
    let table ← Act.ofExcept (Language.tableOfEngine answer)
    modify fun w => { w with languages := (e.modulePath, table) :: w.languages }
    return table

/-- The options of local configuration for a path. -/
def resolveConfig (e : Engine) (path : String) (options : Fields) :
    Act World (Option Fields) := do
  match ← e.call "resolveConfig" (.obj [("path", .str path), ("options", .obj options)]) with
  | .obj fields => return some fields
  | _ => return none

/-- The configuration file that governs a path. -/
def configFile (e : Engine) (path : String) : Act World (Option Json) := do
  return (← e.call "resolveConfigFile" (.obj [("path", .str path)])).ifTruthy

/-- How an engine describes itself. -/
def describe (e : Engine) : String :=
  "NodePrettierEngine(" ++ Text.quoted e.modulePath ++ ", version=" ++
    (Json.ofString? e.version).represent ++ ")"

end FormatServer.Engine
