import FormatServer.Failure
import FormatServer.Json.Display
import FormatServer.Path.Spelling

/-!
# Languages of the engine

The engine's table of languages: for each its parsers, its file extensions and the editor's
identifiers for it. Several languages can share an identifier, so the file's extension decides
between them, and the order of the table where it does not.
-/

set_option autoImplicit false

namespace FormatServer

/-- One language of the table. -/
structure Language where
  name : String
  parsers : List Json := []
  extensions : List Json := []
  editorIds : List Json := []
  deriving Inhabited

namespace Language

/-- A list names a text. -/
def names (items : List Json) (s : String) : Bool :=
  items.any fun
    | .str t => t = s
    | _ => false

/-- The members of a value that a key may be missing for. -/
def members (fields : Fields) (key : String) : Except Fault (List Json) :=
  match ((fields.get? key).getD .null).members? with
  | some ms => .ok ms
  | none => .error .answerNotListed

/-- One entry of the engine's answer. -/
def ofEngine (entry : Json) : Except Fault Language :=
  match entry with
  | .obj fields => do
    let fields : Fields := fields
    return {
      name := ((fields.get? "name").getD (.str "")).display
      parsers := ← members fields "parsers"
      extensions := ← members fields "extensions"
      editorIds := ← members fields "vscodeLanguageIds" }
  | v => .error (.answerNotAnObject v.kind)

/-- The table in the engine's answer; falsy entries are left out. -/
def tableOfEngine (answer : Json) : Except Fault (List Language) :=
  if !answer.truthy then .ok []
  else
    match answer with
    | .obj fields => do
      let entries ← members fields "languages"
      (entries.filter Json.truthy).mapM ofEngine
    | v => .error (.answerNotAnObject v.kind)

/-- The language lists the editor's identifier and has a parser. -/
def serves (languageId : String) (l : Language) : Bool :=
  names l.editorIds languageId && !l.parsers.isEmpty

/-- The language lists the extension, which is not empty. -/
def hasExtension (extension : String) (l : Language) : Bool :=
  extension ≠ "" && names l.extensions extension

/-- The first parser of the first language that serves the identifier and has the extension of the
path, or else of the first that serves the identifier. -/
def parserFor? (languages : List Language) (path : Option String) (languageId : String) :
    Option Json :=
  let extension := (path.map Spelling.extension).getD ""
  let serving := languages.filter (serves languageId)
  ((serving.find? (hasExtension extension)).or serving.head?).bind (·.parsers.head?)

end Language

end FormatServer
