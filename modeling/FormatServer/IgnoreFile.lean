import FormatServer.Workspace.Search
import FormatServer.Workspace.Setting
import FormatServer.World

/-!
# Ignore files

The ignore file for a path: the one in the settings resolved for the file if it exists, or else the
nearest one from the file's directory up to the root of its folder. An absolute path in the
settings is not searched for.
-/

set_option autoImplicit false

namespace FormatServer.IgnoreFile

/-- The nearest ignore file at or above the directory of a path, up to its folder. -/
def nearest (w : World) (path name : String) : Except Fault (Option String) := do
  let folder? ← Folder.containing w.folders path
  let stop := folder?.map fun f => f.2.toString
  let found? ← Workspace.findUp w.files name (Spelling.directory path) stop
  return found?.map (·.toString)

/-- The ignore file with a name, for a path. -/
def locate (w : World) (path name : String) : Except Fault (Option String) := do
  let named? ← Workspace.resolve w.home w.folders path name
  match named?.filter w.files.has with
  | some file => return some file
  | none => if Spelling.isAbsolute name then return none else nearest w path name

/-- The ignore file for a path; a relative path has none. -/
def find (path : String) (setting : Json) : Act World (Option String) := do
  if !Spelling.isAbsolute path then return none
  else
    match setting with
    | .str name => Act.ofExcept (locate (← get) path name)
    | _ => throw .pathNotText

end FormatServer.IgnoreFile
