import FormatServer.Failure
import FormatServer.Text.Lowercase

/-!
# Log records

A record has a numeric level and a message. The editor is shown the records that reach the level of
the logger and of its channel, each with the name of its level. What is logged may come with data,
which is rendered at once if the logger lets the level through.
-/

set_option autoImplicit false

namespace FormatServer

structure LogRecord where
  level : Int
  message : String
  deriving DecidableEq, Repr, Inhabited

namespace Level

def debug : Int := 10
def info : Int := 20
def warning : Int := 30
def error : Int := 40
def critical : Int := 50

/-- The level that a word stands for, `info` for no word or an unknown one. -/
def ofName (name : Option String) : Int :=
  match Text.lower (name.getD "") with
  | "debug" => debug
  | "info" => info
  | "warn" => warning
  | "warning" => warning
  | "error" => error
  | _ => info

/-- The name under which a level is shown. -/
def name (level : Int) : String :=
  if level = debug then "DEBUG"
  else if level = info then "INFO"
  else if level = warning then "WARNING"
  else if level = error then "ERROR"
  else if level = critical then "CRITICAL"
  else "Level " ++ toString level

end Level

/-- A logger: the level that a record must reach, and the number of consoles it writes to. -/
structure Logger where
  level : Int := Level.info
  consoles : Nat := 0
  deriving DecidableEq, Repr, Inhabited

/-- Sets the level by its word, and gives the logger a console if it has none. -/
def Logger.configure (l : Logger) (word : Option String) : Logger :=
  ⟨Level.ofName word, max 1 l.consoles⟩

/-- The level that a record must reach: the logger's own, or `warning` for a logger that has none,
which is level zero. -/
def Logger.threshold (l : Logger) : Int := if l.level = 0 then Level.warning else l.level

/-- How the editor classes a message. -/
inductive MessageType where
  | error
  | warning
  | info
  | log
  deriving DecidableEq, Repr

/-- The number of a class in the protocol. -/
def MessageType.code : MessageType → Nat
  | .error => 1
  | .warning => 2
  | .info => 3
  | .log => 4

/-- The class of a level: that of the greatest threshold it reaches. -/
def MessageType.ofLevel (level : Int) : MessageType :=
  if Level.error ≤ level then .error
  else if Level.warning ≤ level then .warning
  else if Level.info ≤ level then .info
  else .log

namespace LogRecord

/-- The record passes a logger of level `threshold`; no level at or below zero does. -/
def passes (threshold : Int) (r : LogRecord) : Bool := 0 < r.level && threshold ≤ r.level

/-- What the editor is shown. -/
def shown (r : LogRecord) : MessageType × String :=
  (MessageType.ofLevel r.level, "[" ++ Level.name r.level ++ "] " ++ r.message)

end LogRecord

/-- What is logged: a message at a level, and data to follow it; `null` is no data. -/
structure LogEntry where
  level : Int
  message : String
  data : Json := .null
  deriving Inhabited

namespace LogEntry

/-- The record of a message without its data. -/
def bare (e : LogEntry) : LogRecord := ⟨e.level, e.message⟩

/-- The record of an entry. Data for which the logger has no use is not rendered. -/
def record (l : Logger) (limits : Limits) (e : LogEntry) : Except Fault LogRecord :=
  match e.data with
  | .null => .ok e.bare
  | data =>
    if e.bare.passes l.threshold then
      match Json.Canonical.render limits data with
      | .ok text => .ok ⟨e.level, e.message ++ " " ++ text⟩
      | .error excess => .error (.unrenderable excess)
    else .ok e.bare

end LogEntry

end FormatServer
