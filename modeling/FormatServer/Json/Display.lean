import FormatServer.Json.Basic
import FormatServer.Text.Quoted

/-!
# Plain text of a value

How a message or a version shows a JSON value: text as it is, `None`, `True` and `False` for the
constants, numbers in decimal, and lists and objects with their texts quoted; and the names under
which messages speak of kinds of values.
-/

set_option autoImplicit false

namespace FormatServer.Json

/-- The text of a 64-bit number. -/
def displayReal : Number.Binary64 → String
  | .finite negative m e => String.ofList (Number.Binary64.finiteText negative m e)
  | .infinite negative => if negative then "-inf" else "inf"
  | .nan => "nan"

mutual

/-- A value inside another one, or quoted in a message. -/
def represent : Json → String
  | null => "None"
  | bool b => if b then "True" else "False"
  | int n => toString n
  | real x => displayReal x
  | str s => Text.quoted s
  | arr items => "[" ++ ", ".intercalate (representItems items) ++ "]"
  | obj fields => "\x7b" ++ ", ".intercalate (representFields fields) ++ "\x7d"

/-- The items of a list, each as `represent` shows it. -/
def representItems : List Json → List String
  | [] => []
  | v :: vs => represent v :: representItems vs

/-- The fields of an object, the key quoted. -/
def representFields : List (String × Json) → List String
  | [] => []
  | (k, v) :: fs => (Text.quoted k ++ ": " ++ represent v) :: representFields fs

end

/-- The name of a kind. -/
def Kind.name : Kind → String
  | .null => "NoneType"
  | .bool => "bool"
  | .int => "int"
  | .real => "float"
  | .str => "str"
  | .arr => "list"
  | .obj => "dict"

/-- The name of a container. -/
def Container.name : Container → String
  | .array => "array"
  | .object => "object"

/-- A value on its own. -/
def display : Json → String
  | str s => s
  | v => represent v

end FormatServer.Json
