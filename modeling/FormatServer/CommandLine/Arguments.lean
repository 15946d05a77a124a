import FormatServer.CommandLine.Token
import FormatServer.Text.Integer

/-!
# Arguments of the command line

The flags take effect from left to right: later ones override earlier ones, and a flag that asks for
help or the version ends the reading there. Whatever is not understood is reported last.
-/

set_option autoImplicit false

namespace FormatServer.CommandLine

/-- What the flags set. A part of the TCP address is missing where its flag has no value. -/
structure Arguments where
  stdio : Bool := false
  tcp : Bool := false
  host : Option String := some "127.0.0.1"
  tcpPort : Option Int := some 2087
  logLevel : Option String := none
  nodePath : Option String := none
  deriving DecidableEq, Repr

/-- Why reading the command line ended early. -/
inductive Ending where
  | help
  | version
  | misused (e : UsageError)
  deriving DecidableEq, Repr

/-- A flag without a value takes effect. -/
def Arguments.setFlag (a : Arguments) (f : Flag) : Except Ending Arguments :=
  match f with
  | .help => .error .help
  | .version => .error .version
  | .stdio =>
    if a.tcp then .error (.misused (.exclusive .stdio .tcp)) else .ok { a with stdio := true }
  | .tcp =>
    if a.stdio then .error (.misused (.exclusive .tcp .stdio)) else .ok { a with tcp := true }
  | f => .error (.misused (.missingValue f))

/-- The number that a value stands for. -/
def readNumber (value : String) : Except Ending Int :=
  match Text.readInteger? value with
  | some n => .ok n
  | none => .error (.misused (.notAnInteger .tcpPort value))

/-- The word for a level. -/
def readLevel (value : String) : Except Ending String :=
  if levelWords.contains value then .ok value else .error (.misused (.notALevel value))

/-- A flag takes effect with a value after it or in its own argument. Two dashes are not a value:
they leave a flag that takes one without it. -/
def Arguments.setValue (a : Arguments) (f : Flag) (value : String) : Except Ending Arguments := do
  let given := if value = "--" then none else some value
  match f with
  | .host => return { a with host := given }
  | .tcpPort => return { a with tcpPort := ← given.mapM readNumber }
  | .logLevel => return { a with logLevel := ← given.mapM readLevel }
  | .nodePath => return { a with nodePath := given }
  | f => .error (.misused (.unexpectedValue f value))

/-- Reads tokens; `extras` were not understood so far, the latest first. -/
def readFrom (a : Arguments) (extras : List String) : List Token → Except Ending Arguments
  | [] => if extras.isEmpty then .ok a else .error (.misused (.unrecognized extras.reverse))
  | .separator :: rest => readFrom a ("--" :: extras) rest
  | .plain s :: rest => readFrom a (s :: extras) rest
  | .unknown s :: rest => readFrom a (s :: extras) rest
  | .flag f (some value) :: rest => do readFrom (← a.setValue f value) extras rest
  | .flag f none :: .plain value :: rest => do
    if f.takesValue then readFrom (← a.setValue f value) extras rest
    else readFrom (← a.setFlag f) (value :: extras) rest
  | .flag f none :: rest => do readFrom (← a.setFlag f) extras rest

/-- The arguments of a command line. -/
def read (arguments : List String) : Except Ending Arguments :=
  match tokens arguments with
  | .ok ts => readFrom {} [] ts
  | .error e => .error (.misused e)

end FormatServer.CommandLine
