import FormatServer.Json.Display
import FormatServer.Text.Lowercase

/-!
# Configuration of the server

Read from the environment when the process starts, then overridden by the options that the client
sends first. The values of those options are taken as they are, whatever their type.
-/

set_option autoImplicit false

namespace FormatServer

structure ServerConfig where
  nodePath : Json := .str "node"
  bundledPrettierPath : Json := .null
  settingsSection : Json := .str "prettier"
  logLevel : Json := .str "info"
  deriving Inhabited

namespace ServerConfig

/-- What the names of the environment variables begin with. -/
def variableStem : String := "PRETTIER_LS_"

/-- The value of a variable. -/
def read? (environment : List (String × String)) (name : String) : Option String :=
  environment.lookup (variableStem ++ name)

/-- The configuration in the environment. An empty bundled path counts as none, and the log level
is put in lower case. -/
def ofEnvironment (environment : List (String × String)) : ServerConfig :=
  let read := read? environment
  { nodePath := .str ((read "NODE_PATH").getD "node")
    bundledPrettierPath := Json.ofString? ((read "BUNDLED_PRETTIER_PATH").filter (· ≠ ""))
    settingsSection := .str ((read "SETTINGS_SECTION").getD "prettier")
    logLevel := .str (Text.lower ((read "LOG_LEVEL").getD "info")) }

/-- The options that override a value. -/
def optionKeys : List String := ["nodePath", "bundledPrettierPath", "settingsSection", "logLevel"]

/-- The value of an option that counts as true, or the value it had. -/
def overridden (options : Fields) (key : String) (current : Json) : Json :=
  ((options.get? key).bind Json.ifTruthy).getD current

/-- Some option overrides a value. -/
def overrides (options : Json) : Bool :=
  match options with
  | .obj fields => optionKeys.any fun key => ((Fields.get? fields key).map Json.truthy).getD false
  | _ => false

/-- The configuration with the options of the client; anything but an object changes nothing. -/
def withOptions (c : ServerConfig) (options : Json) : ServerConfig :=
  match options with
  | .obj fields =>
    { nodePath := overridden fields "nodePath" c.nodePath
      bundledPrettierPath := overridden fields "bundledPrettierPath" c.bundledPrettierPath
      settingsSection := overridden fields "settingsSection" c.settingsSection
      logLevel := overridden fields "logLevel" c.logLevel }
  | _ => c

/-- The description of the field that holds the section, which a refusal repeats. -/
def sectionField : String :=
  "Attribute(name='section', default=None, validator=<optional validator for " ++
  "<instance_of validator for type <class 'str'>> or None>, repr=True, eq=True, eq_key=None, " ++
  "order=True, order_key=None, hash=None, init=True, metadata=mappingproxy(\x7b\x7d), " ++
  "type=typing.Optional[str], converter=None, kw_only=False, inherited=False, " ++
  "on_setattr=None, alias='section')"

/-- Why settings cannot be asked for: a section has to be a text or `null`. -/
def sectionRefusal? (c : ServerConfig) : Option String :=
  match c.settingsSection with
  | .null => none
  | .str _ => none
  | v =>
    let shown := v.represent
    let reason := "'section' must be <class 'str'> (got " ++ shown ++ " that is a <class '" ++
      v.kind.name ++ "'>)."
    some ("(" ++ Text.quoted reason ++ ", " ++ sectionField ++ ", <class 'str'>, " ++ shown ++ ")")

end ServerConfig

end FormatServer
