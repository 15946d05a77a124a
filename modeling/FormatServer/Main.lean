import FormatServer.CommandLine.Launch

/-!
# The program

Reads arguments and environment and prints what they come to. Serving itself is left to the
transport in front of a `Session`.
-/

set_option autoImplicit false

namespace FormatServer.CommandLine

/-- The variables that the configuration is read from. -/
def variableNames : List String :=
  ["NODE_PATH", "BUNDLED_PRETTIER_PATH", "SETTINGS_SECTION", "LOG_LEVEL"].map
    (ServerConfig.variableStem ++ ·)

/-- The variables that are set, with their values. -/
def environment : IO (List (String × String)) :=
  variableNames.filterMapM fun name => do
    return (← IO.getEnv name).map fun value => (name, value)

/-- A server runs as the first process of its container. -/
def processNumber : Nat := 1

end FormatServer.CommandLine

/-- Exits with 0 after a text or a start and with 2 after a usage error. -/
def main (arguments : List String) : IO UInt32 := do
  match FormatServer.CommandLine.run arguments (← FormatServer.CommandLine.environment) with
  | .printed text =>
    IO.print text
    return 0
  | .refused e =>
    IO.eprint (FormatServer.CommandLine.refusal e)
    return 2
  | .start s =>
    for r in s.records FormatServer.CommandLine.processNumber do
      IO.eprintln r.shown.2
    return 0
