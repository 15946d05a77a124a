import FormatServer.Text.Quoted

/-!
# Flags of the command line

The flags with their spellings, and what can be wrong with a command line.
-/

set_option autoImplicit false

namespace FormatServer.CommandLine

inductive Flag where
  | help
  | version
  | stdio
  | tcp
  | host
  | tcpPort
  | logLevel
  | nodePath
  deriving DecidableEq, Repr

/-- Every spelling, in the order in which the flags are listed. -/
def spellings : List (String × Flag) :=
  [("-h", .help), ("--help", .help), ("--version", .version), ("--stdio", .stdio), ("--tcp", .tcp),
   ("--host", .host), ("--port", .tcpPort), ("--log-level", .logLevel), ("--node-path", .nodePath)]

/-- All spellings of a flag, as messages show it. -/
def Flag.name (f : Flag) : String :=
  "/".intercalate ((spellings.filter (·.2 = f)).map (·.1))

/-- The flag is followed by a value. -/
def Flag.takesValue : Flag → Bool
  | .host => true
  | .tcpPort => true
  | .logLevel => true
  | .nodePath => true
  | .help => false
  | .version => false
  | .stdio => false
  | .tcp => false

/-- The words for a log level. -/
def levelWords : List String := ["debug", "info", "warn", "warning", "error"]

/-- What is wrong with a command line. -/
inductive UsageError where
  /-- The argument begins several spellings. -/
  | ambiguous (argument : String) (candidates : List String)
  /-- A value for a flag that takes none. -/
  | unexpectedValue (flag : Flag) (value : String)
  | missingValue (flag : Flag)
  | notAnInteger (flag : Flag) (value : String)
  | notALevel (value : String)
  /-- Two flags that exclude each other, the later one first. -/
  | exclusive (flag other : Flag)
  | unrecognized (arguments : List String)
  deriving DecidableEq, Repr

/-- A message about one flag. -/
def aboutFlag (f : Flag) (message : String) : String := "argument " ++ f.name ++ ": " ++ message

/-- The message about a usage error. -/
def UsageError.message : UsageError → String
  | ambiguous argument candidates =>
    "ambiguous option: " ++ argument ++ " could match " ++ ", ".intercalate candidates
  | unexpectedValue flag value => aboutFlag flag ("ignored explicit argument " ++ Text.quoted value)
  | missingValue flag => aboutFlag flag "expected one argument"
  | notAnInteger flag value => aboutFlag flag ("invalid int value: " ++ Text.quoted value)
  | notALevel value =>
    aboutFlag .logLevel ("invalid choice: " ++ Text.quoted value ++ " (choose from " ++
      ", ".intercalate (levelWords.map Text.quoted) ++ ")")
  | exclusive flag other => aboutFlag flag ("not allowed with argument " ++ other.name)
  | unrecognized arguments => "unrecognized arguments: " ++ " ".intercalate arguments

end FormatServer.CommandLine
