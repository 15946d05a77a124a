import FormatServer.Settings

/-!
# The settings cache

The settings of a document are fetched from the client once and kept for the session. A fetch is
numbered in the order of sending. Whoever asks while an entry holds it shares it. A fetch that has
failed is forgotten a little later, and only by an entry that still holds it then.
-/

set_option autoImplicit false

namespace FormatServer

/-- How a fetch ended. -/
abbrev Resolution := Except Fault Settings

/-- One fetch: the key it was made for, the URI it was sent with, and how it ended once it has. -/
structure Fetch where
  key : String
  uri : String
  outcome : Option Resolution := none
  deriving Inhabited

/-- All fetches in the order of sending, and the number of the current one of each key. -/
structure SettingsCache where
  fetches : List Fetch := []
  entries : List (String × Nat) := []
  deriving Inhabited

namespace SettingsCache

/-- The current fetch of a key. -/
def current? (c : SettingsCache) (key : String) : Option Nat := c.entries.lookup key

/-- The fetch with a number; the first one is number 1. -/
def fetch? (c : SettingsCache) (n : Nat) : Option Fetch := if n = 0 then none else c.fetches[n - 1]?

/-- How a fetch ended. -/
def outcome? (c : SettingsCache) (n : Nat) : Option Resolution := (c.fetch? n).bind (·.outcome)

/-- A new fetch for a key. -/
def send (c : SettingsCache) (key uri : String) : SettingsCache :=
  ⟨c.fetches ++ [{ key := key, uri := uri }],
    (key, c.fetches.length + 1) :: c.entries.filter (·.1 ≠ key)⟩

/-- What a fetch for a URI comes to when the client answers it. -/
def resolve (uri : String) (trusted : Bool) (answer : Except String Json) : Resolution := do
  match answer with
  | .error reason => .error (.failure (.settings reason uri))
  | .ok payload =>
    let settings ← Settings.ofClient payload
    return if trusted then settings else settings.sanitized

/-- The entries without those that hold a fetch. -/
def forget (entries : List (String × Nat)) (n : Nat) : List (String × Nat) :=
  entries.filter (·.2 ≠ n)

/-- A fetch under way ends with the client's answer; one that has ended stays as it is. -/
def receive (c : SettingsCache) (n : Nat) (trusted : Bool) (answer : Except String Json) :
    SettingsCache :=
  match c.fetch? n with
  | some f =>
    match f.outcome with
    | some _ => c
    | none =>
      { c with
        fetches := c.fetches.set (n - 1) { f with outcome := some (resolve f.uri trusted answer) } }
  | none => c

/-- A fetch that has failed is forgotten. -/
def evict (c : SettingsCache) (n : Nat) : SettingsCache :=
  match c.outcome? n with
  | some (.error _) => { c with entries := forget c.entries n }
  | _ => c

/-- Drops every entry; fetches under way go on for those who wait. -/
def clear (c : SettingsCache) : SettingsCache := { c with entries := [] }

end SettingsCache

end FormatServer
