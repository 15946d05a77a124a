import FormatServer.CommandLine.Arguments
import FormatServer.Log
import FormatServer.ServerConfig
import FormatServer.Text.Blank

/-!
# Starting from the command line

What a command line and an environment come to: a server to start, or a text to print and an exit
code.
-/

set_option autoImplicit false

namespace FormatServer.CommandLine

/-- The name of the program. -/
def programName : String := "prettier-ls"

def versionText : String := programName ++ " 0.3.0\n"

def usageText : String :=
  "usage: prettier-ls [-h] [--version] [--stdio | --tcp] [--host HOST]\n" ++
  "                   [--port PORT] [--log-level \x7bdebug,info,warn,warning,error\x7d]\n" ++
  "                   [--node-path NODE_PATH]\n"

def helpText : String :=
  usageText ++ "\n" ++
  "Language server that formats documents with Prettier\n\n" ++
  "options:\n" ++
  "  -h, --help            show this help message and exit\n" ++
  "  --version             show program's version number and exit\n" ++
  "  --stdio               Communicate over stdin/stdout (default)\n" ++
  "  --tcp                 Listen for a client on a TCP socket\n" ++
  "  --host HOST           TCP host (default: 127.0.0.1)\n" ++
  "  --port PORT           TCP port (default: 2087)\n" ++
  "  --log-level \x7bdebug,info,warn,warning,error\x7d\n" ++
  "                        Log level (default: $PRETTIER_LS_LOG_LEVEL or info)\n" ++
  "  --node-path NODE_PATH\n" ++
  "                        Node.js executable used to run Prettier\n"

/-- Where a server listens; parts of a TCP address may be missing. -/
inductive Transport where
  | stdio
  | tcp (host : Option String) (tcpPort : Option Int)
  deriving DecidableEq, Repr

/-- How a missing part of a TCP address is shown. -/
def missingText : String := "[]"

/-- What a server says of where it listens. -/
def Transport.describe : Transport → String
  | stdio => ""
  | tcp host tcpPort =>
    " on " ++ host.getD missingText ++ ":" ++ ((tcpPort.map toString).getD missingText)

/-- A server to start. -/
structure Start where
  config : ServerConfig
  transport : Transport

/-- What a command line comes to. -/
inductive Outcome where
  | start (s : Start)
  /-- The text goes to standard output. -/
  | printed (text : String)
  | refused (e : UsageError)

/-- The logger of the server. -/
def Start.logger (s : Start) : Logger :=
  Logger.configure {} (match s.config.logLevel with
    | .str word => some word
    | _ => none)

/-- The record of a start by process `pid`. -/
def Start.announcement (s : Start) (pid : Nat) : LogRecord :=
  ⟨Level.info,
    "Starting Prettier LSP" ++ s.transport.describe ++ " (pid=" ++ toString pid ++ ")"⟩

/-- The records of a start that pass the server's logger. -/
def Start.records (s : Start) (pid : Nat) : List LogRecord :=
  [s.announcement pid].filter (·.passes s.logger.threshold)

/-- The server that arguments ask for; flags go before the environment. -/
def Arguments.start (a : Arguments) (environment : List (String × String)) : Start :=
  { config := (ServerConfig.ofEnvironment environment).withOptions
      (.obj [("logLevel", Json.ofString? a.logLevel), ("nodePath", Json.ofString? a.nodePath)])
    transport := if a.tcp then .tcp a.host a.tcpPort else .stdio }

/-- What a command line and an environment come to. -/
def run (arguments : List String) (environment : List (String × String)) : Outcome :=
  match read arguments with
  | .ok a => .start (a.start environment)
  | .error .help => .printed helpText
  | .error .version => .printed versionText
  | .error (.misused e) => .refused e

/-- Usage and message of a refused command line, for standard error. -/
def refusal (e : UsageError) : String :=
  usageText ++ programName ++ ": error: " ++ e.message ++ "\n"

/-- The last line of a text, where blanks at the end of the text do not count. -/
def lastLine (text : String) : String :=
  String.ofList (((Text.splitAtEach '\n' (Text.trimEnd text.toList)).getLast?).getD [])

end FormatServer.CommandLine
