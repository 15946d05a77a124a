import FormatServer.Engine.Call
import FormatServer.Installation.Lookup

/-!
# Local configuration

Looking for configuration near a document: with the engine of the document, and with the file that
the settings name if they name one.
-/

set_option autoImplicit false

namespace FormatServer.LocalConfiguration

open World

/-- The configuration file that the settings name, resolved for a file. -/
def namedFile (path : String) (settings : Settings) : Act World (Option String) := do
  match settings.configPath with
  | none => return none
  | some (.str s) =>
    let w ← get
    Act.ofExcept (Workspace.resolve w.home w.folders path s)
  | some _ => throw .pathNotText

/-- The options with which the engine resolves configuration. -/
def lookupOptions (settings : Settings) (file : Option String) : Fields :=
  [("editorconfig", .bool settings.useEditorConfig)] ++
    match file with
    | some f => [("config", .str f)]
    | none => []

/-- A configuration file governs the path: the named one, or one the engine knows of. -/
def hasFile (e : Engine) (path : String) (file : Option String) : Act World Bool := do
  match file with
  | some _ => return true
  | none => return (← e.configFile path).isSome

/-- The outcome of asking the engine. -/
def ask (e : Engine) (path : String) (settings : Settings) (file : Option String) :
    Act World LocalConfig := do
  let governed ← hasFile e path file
  if settings.requireConfig && !governed then
    log Level.info "Require config set to true and no config present. Skipping file."
    return .disabled
  else
    match ← e.resolveConfig path (lookupOptions settings file) with
    | some options => return .found options
    | none => return .missing

/-- The outcome with an engine at hand; a failure of the engine is the outcome too. -/
def withEngine (e : Engine) (path : String) (settings : Settings) : Act World LocalConfig := do
  let file ← namedFile path settings
  match ← Act.recover .engine (ask e path settings file) with
  | .ok config => return config
  | .error f =>
    let failure := Failure.invalidConfiguration f.message path
    log Level.error failure.format
    return .errored failure

/-- The outcome for a document. Only files have local configuration, and without an engine nothing
is found; who asks for an engine next reports that there is none. -/
def find (d : Snapshot) (settings : Settings) : Act World LocalConfig := do
  if !d.isFile then return .missing
  else
    let path ← Act.ofExcept d.path
    match ← Act.recover .module (Installation.engine? path settings) with
    | .ok (some e) => withEngine e path settings
    | .ok none => return .missing
    | .error _ => return .missing

end FormatServer.LocalConfiguration
