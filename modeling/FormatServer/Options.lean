import FormatServer.Engine.Answer
import FormatServer.Settings

/-!
# Formatting options

The options of one formatting request, merged from the settings (only without local configuration),
the file and its parser, the range, and the local configuration, in that order of precedence.
-/

set_option autoImplicit false

namespace FormatServer

/-- What a formatting request asks for. The bounds are offsets in UTF-16 code units; `force` formats
files that are ignored or lack a required pragma. -/
structure FormatRequest where
  rangeStart : Option Int := none
  rangeEnd : Option Int := none
  force : Bool := false
  deriving DecidableEq, Repr, Inhabited

/-- Both bounds of a range, if both are there and neither is zero. -/
def FormatRequest.range? (r : FormatRequest) : Option (Int × Int) :=
  match r.rangeStart, r.rangeEnd with
  | some a, some b => if a ≠ 0 ∧ b ≠ 0 then some (a, b) else none
  | _, _ => none

namespace Options

/-- The settings that count where local configuration was looked for with this outcome. -/
def base (settings : Settings) : LocalConfig → Fields
  | .found _ => []
  | _ => settings.formattingOptions

/-- The bounds of the request. -/
def bounds (request : FormatRequest) : Fields :=
  match request.range? with
  | some (a, b) => [("rangeStart", .int a), ("rangeEnd", .int b)]
  | none => []

/-- The options of local configuration. -/
def localOptions : LocalConfig → Fields
  | .found options => options
  | _ => []

/-- A forced request does not require a pragma. -/
def dropPragma (request : FormatRequest) (options : Fields) : Fields :=
  match options.get? "requirePragma" with
  | some (.bool true) =>
    if request.force then options.set "requirePragma" (.bool false) else options
  | _ => options

/-- The options of a request. -/
def merged (path : String) (parser : Json) (settings : Settings) (config : LocalConfig)
    (request : FormatRequest) : Fields :=
  let options := ((base settings config).set "filepath" (.str path)).set "parser" parser
  dropPragma request ((options.merge (bounds request)).merge (localOptions config))

end Options

end FormatServer
