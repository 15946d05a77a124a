import FormatServer.Json.Basic

/-!
# Processes

The two kinds of command a server starts: the engine's runtime on the script that calls one method
of a module, and a package manager.
-/

set_option autoImplicit false

namespace FormatServer

/-- Stands for the script that loads a module, calls one of its methods and prints the result. -/
def bridgeScript : String := "<bridge>"

/-- What is started. -/
inductive Command where
  /-- A method of the module at a path. -/
  | node (program : Json) (modulePath method : String)
  /-- A package manager with its arguments. -/
  | manager (program : String) (arguments : List String)
  deriving Inhabited

/-- Program and arguments. -/
def Command.argv : Command → List Json
  | node program modulePath method =>
    [program, .str "-e", .str bridgeScript, .str modulePath, .str method]
  | manager program arguments => (program :: arguments).map .str

/-- A command that was started, with what it was given to read. -/
structure Launch where
  command : Command
  stdin : Option Json := none
  deriving Inhabited

/-- How starting a command came out. -/
inductive Reply where
  /-- It could not be started. -/
  | notStarted (reason : String)
  /-- It is no command for the system: a part of it is not a text, or has a zero character in it. -/
  | malformed (reason : String)
  /-- It ran to its end. -/
  | finished (stdout stderr : List UInt8) (exitCode : Int)
  deriving Inhabited

/-- What answers the commands: a reply for each, which may depend on the ones before it. -/
structure Processes where
  reply : List Command → Command → Reply
  started : List Command := []

instance : Inhabited Processes := ⟨⟨fun _ _ => default, []⟩⟩

end FormatServer
