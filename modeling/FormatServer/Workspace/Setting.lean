import FormatServer.Path.Spelling
import FormatServer.Workspace.Folder

/-!
# Paths in the settings

A path in the settings is resolved for a file: `~` stands for the home directory, an absolute path
for itself, and a relative one is joined onto the folder of the file. Without a folder there is
nothing to resolve it against, and an absolute path is not taken either.
-/

set_option autoImplicit false

namespace FormatServer.Workspace

/-- The home directory without trailing slashes, or the root. -/
def homeDirectory (home : String) : String :=
  match (home.toList.reverse.dropWhile (· = '/')).reverse with
  | [] => "/"
  | cs => String.ofList cs

/-- What may follow a tilde that stands for the home directory: the end, also before one last line
feed, or a separator. -/
def endsTilde (rest : List Char) : Bool :=
  match rest with
  | [] => true
  | ['\n'] => true
  | '/' :: _ => true
  | '\\' :: _ => true
  | _ => false

/-- A path with its tilde replaced; a tilde that begins a name stays. -/
def expandHome (home setting : String) : String :=
  match setting.toList with
  | '~' :: rest => if endsTilde rest then homeDirectory home ++ String.ofList rest else setting
  | _ => setting

/-- A path in the settings, resolved for a file. -/
def resolve (home : String) (folders : List Folder) (file setting : String) :
    Except Fault (Option String) :=
  if setting.toList.head? = some '~' then .ok (some (expandHome home setting))
  else
    (Folder.containing folders file).map fun found? =>
      found?.map fun (_, root) =>
        if Spelling.isAbsolute setting then setting
        else (root.join (Path.parse setting)).toString

end FormatServer.Workspace
