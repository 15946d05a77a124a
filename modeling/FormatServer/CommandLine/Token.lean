import FormatServer.CommandLine.Flag
import FormatServer.Text.Digit
import FormatServer.Text.Split

/-!
# Tokens of the command line

What each argument is by its form: a flag, maybe with a value of its own, or a plain argument. A
long flag may be shortened as long as only one flag begins that way.
-/

set_option autoImplicit false

namespace FormatServer.CommandLine

inductive Token where
  /-- The double dash, after which every argument is plain. -/
  | separator
  /-- A flag, with the value written in the same argument. -/
  | flag (f : Flag) (value : Option String)
  /-- An argument that can be the value of a flag. -/
  | plain (argument : String)
  /-- An argument of the form of a flag that is none. -/
  | unknown (argument : String)
  deriving DecidableEq, Repr

/-- A text without the one line feed at its end. -/
def withoutLastBreak (cs : List Char) : List Char :=
  if cs.getLast? = some '\n' then cs.dropLast else cs

/-- A negative number, in digits of any script. -/
def isNegativeNumber (cs : List Char) : Bool :=
  match withoutLastBreak cs with
  | '-' :: r =>
    match r.span Text.isDigit with
    | (whole, []) => !whole.isEmpty
    | (_, '.' :: fraction) => !fraction.isEmpty && fraction.all Text.isDigit
    | _ => false
  | _ => false

/-- What is left as a value where `value` stands behind the short flag `-h`: the letter may be
repeated, and nothing else is left of a value that only repeats it. -/
def shortValue (value : List Char) : Option String :=
  let rest := value.dropWhile (· = 'h')
  if rest.isEmpty && !value.isEmpty then none else some (String.ofList rest)

/-- The flag of a spelling, with the value after it. -/
def withValue (spelling : String) (f : Flag) (value : List Char) : Token :=
  .flag f (if spelling = "-h" then shortValue value else some (String.ofList value))

/-- A flag spelled out, with the value after an equals sign if there is one. -/
def spelledOut? (argument : String) : Option Token :=
  match spellings.lookup argument with
  | some f => some (.flag f none)
  | none =>
    (Text.cut? '=' argument.toList).bind fun (spelling, value) =>
      (spellings.lookup (String.ofList spelling)).map fun f =>
        withValue (String.ofList spelling) f value

/-- The flags that an argument is short for, with their spellings and the value. -/
def shortened (argument : String) : List (String × Token) :=
  match argument.toList with
  | '-' :: '-' :: _ =>
    let (stem, value) :=
      match Text.cut? '=' argument.toList with
      | some (stem, value) => (stem, some (String.ofList value))
      | none => (argument.toList, none)
    (spellings.filter fun s => stem.isPrefixOf s.1.toList).map fun s => (s.1, .flag s.2 value)
  | '-' :: 'h' :: value => [("-h", withValue "-h" .help value)]
  | _ => []

/-- An argument that begins like a flag and is short for none. -/
def unmatched (argument : String) : Token :=
  if isNegativeNumber argument.toList || argument.toList.contains ' ' then .plain argument
  else .unknown argument

/-- What an argument is, before the separator. -/
def classify (argument : String) : Except UsageError Token :=
  if argument.toList.head? ≠ some '-' || argument = "-" then .ok (.plain argument)
  else
    match spelledOut? argument with
    | some t => .ok t
    | none =>
      match shortened argument with
      | [] => .ok (unmatched argument)
      | [(_, t)] => .ok t
      | several => .error (.ambiguous argument (several.map (·.1)))

/-- The tokens of a command line. -/
def tokens : List String → Except UsageError (List Token)
  | [] => .ok []
  | argument :: rest =>
    if argument = "--" then .ok (.separator :: rest.map .plain)
    else do
      let t ← classify argument
      return t :: (← tokens rest)

end FormatServer.CommandLine
