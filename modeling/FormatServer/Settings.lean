import FormatServer.Failure
import FormatServer.Json.Key

/-!
# Settings of a document

What the client answers for a document. Some keys decide where the formatter and its configuration
come from; of the rest only the known formatting options are ever passed on.
-/

set_option autoImplicit false

namespace FormatServer

/-- The ignore file that is looked for unless the settings name another one. -/
def defaultIgnorePath : String := ".prettierignore"

/-- The options passed on where there is no local configuration. -/
def formattingKeys : List String :=
  ["arrowParens", "bracketSpacing", "endOfLine", "htmlWhitespaceSensitivity", "insertPragma",
   "singleAttributePerLine", "bracketSameLine", "jsxBracketSameLine", "jsxSingleQuote",
   "printWidth", "proseWrap", "quoteProps", "requirePragma", "semi", "singleQuote", "tabWidth",
   "trailingComma", "useTabs", "embeddedLanguageFormatting", "vueIndentScriptAndStyle"]

/-- Effective settings. Paths and the package manager are kept as the client sent them. -/
structure Settings where
  prettierPath : Option Json := none
  configPath : Option Json := none
  ignorePath : Json := .str defaultIgnorePath
  documentSelectors : List Json := []
  useEditorConfig : Bool := true
  withNodeModules : Bool := false
  resolveGlobalModules : Bool := false
  requireConfig : Bool := false
  packageManager : Option Json := none
  raw : Fields := []
  deriving Inhabited

namespace Settings

/-- Key and value of one member of a list of pairs. -/
def entryOf : Json → Except Fault (Json × Json)
  | .arr [k, v] =>
    match k with
    | .arr _ => .error .settingsNotAnObject
    | .obj _ => .error .settingsNotAnObject
    | k => .ok (k, v)
  | .str s =>
    match s.toList with
    | [k, v] => .ok (.str (String.singleton k), .str (String.singleton v))
    | _ => .error .settingsMalformed
  | .obj [(k, _), (v, _)] => .ok (.str k, .str v)
  | .arr _ => .error .settingsMalformed
  | .obj _ => .error .settingsMalformed
  | _ => .error .settingsNotAnObject

/-- The fields of a payload: an object has its own, a falsy payload none, and a list is read as
pairs. -/
def fieldsOf (payload : Json) : Except Fault Fields :=
  if !payload.truthy then .ok []
  else
    match payload with
    | .obj fields => .ok fields
    | .arr items => (items.mapM entryOf).map Json.fieldsOfEntries
    | .str _ => .error .settingsMalformed
    | _ => .error .settingsNotAnObject

/-- The value of a key if it counts as true. -/
def chosen (fields : Fields) (key : String) : Option Json := (fields.get? key).bind Json.ifTruthy

/-- A switch, with the value it has when its key is missing. -/
def switch (fields : Fields) (key : String) (default : Bool) : Bool :=
  ((fields.get? key).map Json.truthy).getD default

/-- The settings in a client's payload. -/
def ofClient (payload : Json) : Except Fault Settings := do
  let fields ← fieldsOf payload
  let selectors ← match ((fields.get? "documentSelectors").getD .null).members? with
    | some ms => .ok ms
    | none => .error .selectorsNotListed
  return {
    prettierPath := chosen fields "prettierPath"
    configPath := chosen fields "configPath"
    ignorePath := (fields.get? "ignorePath").getD (.str defaultIgnorePath)
    documentSelectors := selectors
    useEditorConfig := switch fields "useEditorConfig" true
    withNodeModules := switch fields "withNodeModules" false
    resolveGlobalModules := switch fields "resolveGlobalModules" false
    requireConfig := switch fields "requireConfig" false
    packageManager := chosen fields "packageManager"
    raw := fields }

/-- The settings without anything by which a workspace could choose what is loaded or read. -/
def sanitized (s : Settings) : Settings :=
  { s with
    prettierPath := none
    configPath := none
    ignorePath := .str defaultIgnorePath
    documentSelectors := []
    useEditorConfig := false
    withNodeModules := false
    resolveGlobalModules := false }

/-- The formatting options that the client set. -/
def formattingOptions (s : Settings) : Fields :=
  formattingKeys.filterMap fun key =>
    match s.raw.get? key with
    | some .null => none
    | some v => some (key, v)
    | none => none

end Settings

end FormatServer
