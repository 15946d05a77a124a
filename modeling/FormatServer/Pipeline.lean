import FormatServer.Act
import FormatServer.Edit.Text
import FormatServer.Log
import FormatServer.Options

/-!
# The formatting pipeline

A request passes a row of gates: settings, local configuration, engine, file information, parser.
Where one is shut the request ends without an edit and with a record why. Behind them the engine
formats the whole text, and the result is reduced to the smallest edit.

The pipeline knows its collaborators by their actions only, on a state `σ` and with a handle `ε` for
an engine, whatever these may be.
-/

set_option autoImplicit false

namespace FormatServer

/-- What the pipeline asks of its surroundings. -/
structure Collaborators (σ ε : Type) where
  log : LogEntry → Act σ Unit
  localConfig : Snapshot → Settings → Act σ LocalConfig
  engine : String → Settings → Act σ (Option ε)
  ignoreFile : String → Json → Act σ (Option String)
  fileInfo : ε → String → Fields → Act σ FileInfo
  languages : ε → Act σ (List Language)
  format : ε → String → Fields → Act σ String

namespace Pipeline

variable {σ ε : Type} (c : Collaborators σ ε)

def info (message : String) : Act σ Unit := c.log { level := Level.info, message }

def warn (message : String) : Act σ Unit := c.log { level := Level.warning, message }

def error (message : String) : Act σ Unit := c.log { level := Level.error, message }

/-- Announces a request and says where its document lies. -/
def announce (d : Snapshot) : Act σ String := do
  info c ("Formatting " ++ d.uri)
  Act.ofExcept d.path

/-! ## Behind the gates -/

/-- The options of a request, with a record of where they come from and what they are. -/
def options (path : String) (parser : Json) (settings : Settings) (config : LocalConfig)
    (request : FormatRequest) : Act σ Fields := do
  match config with
  | .found _ =>
    info c ("Detected local configuration (i.e. .prettierrc or .editorconfig), " ++
      "editor settings will not be used")
  | _ =>
    info c ("No local configuration (i.e. .prettierrc or .editorconfig) detected, " ++
      "falling back to editor settings")
  let merged := Options.merged path parser settings config request
  c.log ⟨Level.info, "Prettier Options:", .obj merged⟩
  return merged

/-- The text that the engine returns, or the text as it is if formatting fails. -/
def formatted (e : ε) (text : String) (options : Fields) : Act σ String := do
  match ← Act.attempt (c.format e text options) with
  | .ok result => return result
  | .error fault =>
    error c ("Error formatting document. " ++ fault.message)
    return text

/-! ## Gates -/

/-- The ignore file that applies to a file; an empty or missing name asks for none. -/
def ignoreFile (d : Snapshot) (path : String) (settings : Settings) :
    Act σ (Option String) := do
  if settings.ignorePath.truthy && d.isFile then
    match ← c.ignoreFile path settings.ignorePath with
    | some file =>
      info c ("Using ignore file (if present) at " ++ file)
      return some file
    | none => return none
  else return none

/-- What the engine is asked about a file. -/
def fileInfoOptions (settings : Settings) (ignoreFile : Option String) : Fields :=
  [("resolveConfig", .bool true), ("withNodeModules", .bool settings.withNodeModules)] ++
    match ignoreFile with
    | some file => [("ignorePath", .str file)]
    | none => []

/-- The outcome of the file information gate. -/
inductive Inspection where
  /-- The engine could not say. -/
  | failed
  /-- The document is no file. -/
  | virtual
  | known (info : FileInfo)

/-- Asks the engine about a file. -/
def inspect (e : ε) (d : Snapshot) (path : String) (settings : Settings)
    (ignoreFile : Option String) : Act σ Inspection := do
  if d.isFile then
    match ← Act.recover .engine (c.fileInfo e path (fileInfoOptions settings ignoreFile)) with
    | .ok found =>
      c.log ⟨Level.info, "File Info:", found.toJson⟩
      return .known found
    | .error f =>
      error c ("Failed to read file info. " ++ f.format)
      return .failed
  else return .virtual

/-- The file is ignored, as far as the engine said. -/
def Inspection.ignored : Inspection → Bool
  | known i => i.ignored
  | _ => false

/-- The parser that the engine said it would use, if it named one. -/
def Inspection.parser? : Inspection → Option Json
  | known i => i.inferredParser.bind Json.ifTruthy
  | _ => none

/-- The parser for the editor's language of a document. -/
def languageParser (e : ε) (d : Snapshot) (path : String) : Act σ (Option Json) := do
  warn c "Parser not inferred, trying the editor language."
  match ← Act.recover .engine (c.languages e) with
  | .ok languages => return Language.parserFor? languages (some path) d.languageId
  | .error f =>
    error c ("Failed to read supported languages. " ++ f.format)
    return none

/-- The parser for a document: the inferred one, or the one for its language. Plain text has
none. -/
def parser? (e : ε) (d : Snapshot) (path : String) (inspection : Inspection) :
    Act σ (Option Json) := do
  match inspection.parser? with
  | some p => return some p
  | none =>
    if d.languageId = plainText then return none
    else return (← languageParser c e d path).bind Json.ifTruthy

/-! ## The pipeline -/

/-- The gates from the parser on. -/
def parseAndFormat (text : String) (d : Snapshot) (path : String) (settings : Settings)
    (config : LocalConfig) (request : FormatRequest) (e : ε) (inspection : Inspection) :
    Act σ (Option String) := do
  match ← parser? c e d path inspection with
  | none =>
    error c ("Failed to resolve a parser, skipping file. " ++
      "If you registered a custom file extension, be sure to configure the parser.")
    return none
  | some parser =>
    let merged ← options c path parser settings config request
    return some (← formatted c e text merged)

/-- The gates from the engine on. -/
def inspectAndFormat (text : String) (d : Snapshot) (path : String) (settings : Settings)
    (config : LocalConfig) (request : FormatRequest) (e : ε) : Act σ (Option String) := do
  let file ← ignoreFile c d path settings
  let inspection ← inspect c e d path settings file
  match inspection with
  | .failed => return none
  | _ =>
    if !request.force && inspection.ignored then
      info c "File is ignored, skipping."
      return none
    else parseAndFormat c text d path settings config request e inspection

/-- The gates from local configuration on. -/
def withSettings (text : String) (d : Snapshot) (path : String) (request : FormatRequest)
    (settings : Settings) : Act σ (Option String) := do
  let config ← c.localConfig d settings
  if !config.allowsFormatting then
    info c ("Local configuration is " ++ config.status ++ ", skipping.")
    return none
  else
    match ← c.engine path settings with
    | none =>
      error c "Prettier could not be loaded. See previous logs for more information."
      return none
    | some e => inspectAndFormat c text d path settings config request e

/-- What follows once the settings have been fetched, or could not be. -/
def complete (text : String) (d : Snapshot) (path : String) (request : FormatRequest)
    (outcome : Except Fault Settings) : Act σ (Option String) := do
  match ← Act.recover .settings (Act.ofExcept outcome) with
  | .ok settings => withSettings c text d path request settings
  | .error f =>
    error c f.format
    return none

/-- The formatted text of a document, none where formatting must not happen. -/
def format (fetch : String → Act σ (Except Fault Settings)) (text : String) (d : Snapshot)
    (request : FormatRequest) : Act σ (Option String) := do
  let path ← announce c d
  complete c text d path request (← fetch d.uri)

/-- The edits that turn a document into a formatted text: none, or the smallest one. -/
def editsFor (d : Snapshot) : Option String → List TextEdit
  | none => []
  | some result =>
    let e := TextEdit.between d result
    if e.isEmpty then [] else [e]

/-- The edits that answer a request. -/
def provideEdits (fetch : String → Act σ (Except Fault Settings)) (d : Snapshot)
    (request : FormatRequest) : Act σ (List TextEdit) := do
  return editsFor d (← format c fetch d.text d request)

end Pipeline

end FormatServer
