import FormatServer.Json.Canonical
import FormatServer.Json.Display

/-!
# Failures and faults

A `Failure` is reported to the user: it has a message and says which stage of a formatting request
it belongs to. A `Fault` ends a request: it is a failure, or an input that no rule covers.
-/

set_option autoImplicit false

namespace FormatServer

/-- The stage of a request that a failure belongs to. -/
inductive Stage where
  | general
  | settings
  | module
  | configuration
  | engine
  deriving DecidableEq, Repr

/-- The code that failures of a stage carry. -/
def Stage.code? : Stage → Option String
  | .general => none
  | .settings => some "PLS001"
  | .module => some "PLS002"
  | .configuration => some "PLS003"
  | .engine => some "PLS004"

/-- A failure as it is reported; `stderr` and `exitCode` belong to a process that ran. -/
structure Failure where
  stage : Stage
  message : String
  path : Option String := none
  code : Option String := stage.code?
  hint : Option String := none
  stderr : String := ""
  exitCode : Option Int := none
  deriving DecidableEq, Repr

namespace Failure

/-- A text that is there and not empty. -/
def present (s? : Option String) : List String := s?.toList.filter (· ≠ "")

/-- The message with path and code in brackets, and the hint after it. -/
def format (f : Failure) : String :=
  let details := present f.path ++ present f.code
  let body := if details.isEmpty then f.message
    else f.message ++ " (" ++ "; ".intercalate details ++ ")"
  let hints := (present f.hint).map ("Hint: " ++ ·)
  " ".intercalate (([body] ++ hints).filter (· ≠ ""))

/-- The client could not provide the settings of a document. -/
def settings (reason uri : String) : Failure :=
  { stage := .settings, message := "Could not fetch settings: " ++ reason, path := some uri }

/-- A path holds no readable manifest. -/
def unreadableManifest (modulePath : String) : Failure :=
  { stage := .module, message := "No readable package.json in " ++ modulePath,
    path := some modulePath }

/-- The manifest at a path names another package. -/
def foreignPackage (modulePath : String) : Failure :=
  { stage := .module, message := modulePath ++ " is not a Prettier package",
    path := some modulePath,
    hint := some "Point prettierPath at the directory that contains Prettier's package.json." }

/-- A relative `prettierPath` for a file outside every workspace folder; `shown` is its quoted
form. -/
def unresolvedModule (shown path : String) : Failure :=
  { stage := .module,
    message := "Cannot resolve prettierPath " ++ shown ++ " outside a workspace folder",
    path := some path }

/-- Local configuration that the engine could not load. -/
def invalidConfiguration (reason path : String) : Failure :=
  { stage := .configuration,
    message := "Invalid prettier configuration file detected: " ++ reason, path := some path }

end Failure

/-- What ends a request. -/
inductive Fault where
  /-- A failure that is reported. -/
  | failure (f : Failure)
  /-- The client answered a number or `true` for the settings. -/
  | settingsNotAnObject
  /-- The client answered settings that cannot be read as keys and values. -/
  | settingsMalformed
  /-- Document selectors that cannot be gone through. -/
  | selectorsNotListed
  /-- An answer of the engine that should have been an object, by its kind. -/
  | answerNotAnObject (found : Json.Kind)
  /-- A part of an answer that cannot be gone through. -/
  | answerNotListed
  /-- A path in the settings that is not a text. -/
  | pathNotText
  /-- A module path that is not a text. -/
  | modulePathNotText
  /-- A list or an object where a name to look up is wanted. -/
  | notAName
  /-- A URI whose authority is malformed. -/
  | malformedUri
  /-- A path that names a host and nothing on it. -/
  | hostWithoutPath
  /-- Command arguments that are a number or `true`. -/
  | argumentsNotListed
  /-- Command arguments given as an object. -/
  | argumentsNotPositional
  /-- JSON whose lists and objects lie too deep, with the first container that does. -/
  | nestedTooDeep (container : Json.Container)
  /-- Data that has no text to be logged with. -/
  | unrenderable (excess : Json.Canonical.Excess)
  /-- Output of a package manager that is not UTF-8. -/
  | undecodableOutput
  /-- A command that the system does not take as one. -/
  | commandMalformed (reason : String)
  /-- A path of which the system refuses to say what it leads to. -/
  | pathRefused
  /-- No task was started under the name. -/
  | unknownTask
  deriving DecidableEq, Repr

/-- The text of a fault in a log message. -/
def Fault.message : Fault → String
  | .failure f => f.message
  | .settingsNotAnObject => "settings are not an object"
  | .settingsMalformed => "settings are malformed"
  | .selectorsNotListed => "document selectors are not a list"
  | .answerNotAnObject found => "'" ++ found.name ++ "' object has no attribute 'get'"
  | .answerNotListed => "part of the answer is not a list"
  | .pathNotText => "a path is not a text"
  | .modulePathNotText => "a module path is not a text"
  | .notAName => "a name is neither a text nor a number"
  | .malformedUri => "the URI is malformed"
  | .hostWithoutPath => "a path names a host only"
  | .argumentsNotListed => "arguments are not a list"
  | .argumentsNotPositional => "arguments are not positional"
  | .nestedTooDeep container =>
    "maximum recursion depth exceeded while decoding a JSON " ++ container.name ++
      " from a unicode string"
  | .unrenderable .tooDeep => "data lies too deep"
  | .unrenderable .tooLong => "an integer has too many digits"
  | .undecodableOutput => "output is not UTF-8"
  | .commandMalformed reason => reason
  | .pathRefused => "a path cannot be looked up"
  | .unknownTask => "there is no such task"

end FormatServer
