import FormatServer.Installation.Manifest
import FormatServer.Workspace.Search
import FormatServer.Workspace.Setting
import FormatServer.World

/-!
# Finding the formatter

The module for a file is the first of: the one the settings name, the nearest local installation
(in a trusted workspace), the package manager's global one (if the settings ask for it), and the
bundled one. A module that the settings name is never replaced by another one.
-/

set_option autoImplicit false

namespace FormatServer.Installation

open World

/-- A module and its version. -/
structure Found where
  modulePath : String
  version : String
  deriving DecidableEq, Repr, Inhabited

/-- The installation at a path. -/
def load (modulePath : String) : Act World Found := do
  let w ← get
  return ⟨modulePath, ← Act.ofExcept (readVersion w.limits w.files modulePath)⟩

/-- The installation at a path, or nothing but a record if there is none. -/
def tryLoad (modulePath skipping : String) : Act World (Option Found) := do
  match ← Act.recover .module (load modulePath) with
  | .ok found => return some found
  | .error f =>
    log Level.debug (skipping ++ f.format)
    return none

/-! ## The candidates -/

/-- The module path that the settings name. -/
def explicitPath (path : String) (setting : Json) : Act World String := do
  match setting with
  | .str s =>
    let w ← get
    match ← Act.ofExcept (Workspace.resolve w.home w.folders path s) with
    | some resolved => return resolved
    | none =>
      if Spelling.isAbsolute s then return s
      else Act.fail (Failure.unresolvedModule (Text.quoted s) path)
  | _ => throw .pathNotText

/-- Where a local installation lies below a directory. -/
def localName : String := "node_modules/prettier"

/-- The nearest local installation of a trusted workspace. -/
def localModule (path : String) : Act World (Option Found) := do
  let w ← get
  if w.trusted && Spelling.isAbsolute path then
    match ← Act.ofExcept (Workspace.findUp w.files localName (Spelling.directory path) none) with
    | some p => tryLoad p.toString "Skipping local module: "
    | none => return none
  else return none

/-- The package manager to ask for global modules: the one in the settings, the one the client
names for the folder of the file, or npm. -/
def packageManagerFor (path : String) (settings : Settings) : Act World Json := do
  match settings.packageManager with
  | some manager => return manager
  | none =>
    match ← Act.ofExcept (Folder.containing (← get).folders path) with
    | some (folder, _) => return .str ((← askPackageManager folder.uri).getD "npm")
    | none => return .str "npm"

/-- Arguments that make a package manager print its global root, and where modules lie below it. -/
def rootCommand? : String → Option (List String × Option String)
  | "npm" => some (["root", "-g"], none)
  | "pnpm" => some (["root", "-g"], none)
  | "yarn" => some (["global", "dir"], some "node_modules")
  | _ => none

/-- The root that a package manager printed; none if it printed blanks only. -/
def printedRoot (stdout : List UInt8) (below : Option String) : Except Fault (Option String) :=
  if stdout.all Text.isBlankByte then .ok none
  else
    match Text.decode? stdout with
    | none => .error .undecodableOutput
    | some cs =>
      let root := String.ofList (Text.trim cs)
      .ok (some (match below with
        | some name => Spelling.join root name
        | none => root))

/-- Asks a package manager for its global root. -/
def askRoot (manager : String) (arguments : List String) (below : Option String) :
    Act World (Option String) := do
  match ← start (.manager manager arguments) none with
  | .notStarted reason =>
    log Level.warning ("Could not run " ++ manager ++ ": " ++ reason)
    return none
  | .malformed reason => throw (.commandMalformed reason)
  | .finished stdout stderr exitCode =>
    let root? ← if exitCode = 0 then Act.ofExcept (printedRoot stdout below) else pure none
    if root?.isNone then
      log Level.warning (manager ++ " " ++ " ".intercalate arguments ++ " failed: " ++
        String.ofList (Text.trim (Text.decodeLossy stderr)))
    return root?

/-- The global root of a known package manager, asked for once. -/
def knownRoot (manager : String) (arguments : List String) (below : Option String) :
    Act World (Option String) := do
  match (← get).globalRoots.lookup manager with
  | some root? => return root?
  | none =>
    let root? ← askRoot manager arguments below
    modify fun w => { w with globalRoots := w.globalRoots ++ [(manager, root?)] }
    return root?

/-- The global root of a package manager; one that is not known is never run. -/
def globalRoot (manager : Json) : Act World (Option String) := do
  match manager with
  | .arr _ => throw .notAName
  | .obj _ => throw .notAName
  | manager =>
    let known? := match manager with
      | .str s => (rootCommand? s).map (s, ·)
      | _ => none
    match known? with
    | some (name, arguments, below) => knownRoot name arguments below
    | none =>
      log Level.warning
        ("Unknown package manager " ++ manager.represent ++ ", global modules not resolved")
      return none

/-- The global installation, if the settings ask for global modules. -/
def globalModule (path : String) (settings : Settings) : Act World (Option Found) := do
  if settings.resolveGlobalModules then
    match ← globalRoot (← packageManagerFor path settings) with
    | some root => tryLoad (Spelling.join root "prettier") "Skipping global module: "
    | none => return none
  else return none

/-- The bundled installation, if one is configured. -/
def bundledModule : Act World (Option Found) := do
  let bundled := (← get).config.bundledPrettierPath
  match bundled with
  | .str s => if s = "" then return none else return some (← load s)
  | v => if v.truthy then throw .modulePathNotText else return none

/-! ## The choice -/

/-- The module for a file. -/
def find (path : String) (settings : Settings) : Act World (Option Found) := do
  match settings.prettierPath with
  | some setting => return some (← load (← explicitPath path setting))
  | none =>
    match ← localModule path with
    | some found => return some found
    | none =>
      match ← globalModule path settings with
      | some found => return some found
      | none => bundledModule

/-- The engine for a file; each module has one engine for the whole session. -/
def engine? (path : String) (settings : Settings) : Act World (Option Engine) := do
  match ← find path settings with
  | none => return none
  | some found =>
    let w ← get
    match w.engines.find? (·.modulePath = found.modulePath) with
    | some e => return some e
    | none =>
      let shown := if found.version = "" then "(unknown version)" else found.version
      log Level.info ("Using Prettier " ++ shown ++ " from " ++ found.modulePath)
      let e : Engine := ⟨found.modulePath, w.config.nodePath, some found.version⟩
      modify fun w => { w with engines := w.engines ++ [e] }
      return some e

/-- The engine for a file, with a record of why there is none. -/
def reportedEngine? (path : String) (settings : Settings) : Act World (Option Engine) := do
  match ← Act.recover .module (engine? path settings) with
  | .error f =>
    log Level.error ("Failed to load Prettier: " ++ f.format)
    return none
  | .ok none =>
    log Level.error ("No Prettier installation found for " ++ path)
    return none
  | .ok (some e) => return some e

end FormatServer.Installation
