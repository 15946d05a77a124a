import FormatServer.Failure
import FormatServer.Path.Basic

/-!
# Files

The files a server can see: content by path, and directories, which exist as soon as something is
below them. Relative paths start at the working directory. There are paths of which the system says
nothing, because a name is too long for it or a directory may not be entered.
-/

set_option autoImplicit false

namespace FormatServer

/-- What a path leads to. -/
inductive Node where
  | file (content : List UInt8)
  | directory
  deriving DecidableEq, Repr

/-- Files and empty directories by the components of their absolute paths. -/
structure Files where
  entries : List (List String × Node) := []
  /-- The directory the server was started in, which always exists. -/
  workingDirectory : List String := []
  /-- The system refuses to say what the path leads to. -/
  refused : String → Bool := fun _ => false
  deriving Inhabited

namespace Files

/-- Components of an absolute path. -/
def components (path : String) : List String :=
  ((Text.splitAtEach '/' path.toList).map String.ofList).filter (· ≠ "")

/-- What the components lead to. -/
def node? (files : Files) (names : List String) : Option Node :=
  match files.entries.lookup names with
  | some n => some n
  | none =>
    if names.isEmpty || names.isPrefixOf files.workingDirectory ||
        files.entries.any (fun e => names.isPrefixOf e.1) then some .directory
    else none

/-- One component further from a directory. -/
def step (files : Files) (dir : List String) (name : String) : Option (List String) :=
  if files.node? dir ≠ some .directory then none
  else if name = "" ∨ name = "." then some dir
  else if name = ".." then some dir.dropLast
  else some (dir ++ [name])

/-- What a path leads to: every component but the last must be an existing directory, and a slash
at the end asks for one too. -/
def find? (files : Files) (path : String) : Option Node :=
  if path = "" then none
  else
    let names := (Text.splitAtEach '/' path.toList).map String.ofList
    let start := if path.toList.head? = some '/' then [] else files.workingDirectory
    (names.foldlM (files.step · ·) start).bind files.node?

/-- What the system says that a path leads to. -/
def look? (files : Files) (path : String) : Option Node :=
  if files.refused path then none else files.find? path

/-- The path leads to something, as far as the system says. -/
def has (files : Files) (path : String) : Bool := (files.look? path).isSome

/-- Whether the path leads to something; that the system refuses to say is a fault. -/
def exists? (files : Files) (path : String) : Except Fault Bool :=
  if files.refused path then .error .pathRefused else .ok (files.has path)

/-- The content of a file. -/
def read? (files : Files) (path : String) : Option (List UInt8) :=
  match files.look? path with
  | some (.file content) => some content
  | _ => none

/-- Puts a file or an empty directory at a path. -/
def write (files : Files) (path : String) (n : Node) : Files :=
  let key := components path
  { files with entries := (key, n) :: files.entries.filter (·.1 ≠ key) }

/-- Takes the entry at a path away. -/
def remove (files : Files) (path : String) : Files :=
  let key := components path
  { files with entries := files.entries.filter (·.1 ≠ key) }

/-! ## Laws -/

theorem has_iff {files : Files} {path : String} :
    files.has path = true ↔ files.exists? path = .ok true := by
  unfold exists? has look?
  cases files.refused path <;> simp

theorem exists?_eq_error {files : Files} {path : String} {e : Fault} :
    files.exists? path = .error e ↔ files.refused path = true ∧ e = .pathRefused := by
  unfold exists?
  cases files.refused path <;> simp [eq_comm]

end Files

end FormatServer
