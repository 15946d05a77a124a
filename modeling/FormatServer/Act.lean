import FormatServer.Failure

/-!
# Actions

An action changes a state and ends in a value or in a fault. What it did before a fault stays done.
-/

set_option autoImplicit false

namespace FormatServer

/-- An action on a state of type `σ`. -/
abbrev Act (σ α : Type) := ExceptT Fault (StateM σ) α

namespace Act

variable {σ α : Type}

/-- Does nothing and ends as `result` says. -/
def ofExcept (result : Except Fault α) : Act σ α := ExceptT.mk (pure result)

/-- Ends in a failure. -/
def fail (f : Failure) : Act σ α := throw (.failure f)

/-- Does what `x` does and returns how it ended. -/
def attempt (x : Act σ α) : Act σ (Except Fault α) :=
  ExceptT.mk (x.run >>= fun r => pure (.ok r))

/-- Returns the failures of one stage; any other fault goes on. -/
def recover (stage : Stage) (x : Act σ α) : Act σ (Except Failure α) := do
  match ← attempt x with
  | .ok a => return .ok a
  | .error (.failure f) => if f.stage = stage then return .error f else throw (.failure f)
  | .error e => throw e

end Act

end FormatServer
