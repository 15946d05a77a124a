import FormatServer.Failure
import FormatServer.Json.Display

/-!
# Parameters of client messages

Untyped parameters come as a JSON value, or as a record whose attributes stand for the keys of an
object.
-/

set_option autoImplicit false

namespace FormatServer

inductive Params where
  | value (v : Json)
  | record (attributes : Fields)
  deriving Inhabited

namespace Params

/-- The value of a key or an attribute. -/
def field? : Params → String → Option Json
  | value v, key => v.get? key
  | record attributes, key => attributes.get? key

/-- The parameters say that the workspace is trusted. -/
def isTrusted (p : Params) : Bool := ((p.field? "isTrusted").map Json.truthy).getD false

/-- The URI that a first argument names: a text itself, or the `uri` of an object. -/
def uriOfArgument : Json → Json
  | .str s => .str s
  | v => (v.get? "uri").getD .null

/-- The URI that the arguments of a command name; `null` if they name none. -/
def uri (arguments : Params) : Except Fault Json :=
  match arguments with
  | .record _ => .error .argumentsNotListed
  | .value v =>
    if !v.truthy then .ok .null
    else
      match v with
      | .arr (first :: _) => .ok (uriOfArgument first)
      | .str s => .ok ((s.toList.head?.map fun c => Json.str (String.singleton c)).getD .null)
      | .obj _ => .error .argumentsNotPositional
      | _ => .error .argumentsNotListed

end Params

end FormatServer
