import FormatServer.Path.Basic
import FormatServer.Uri.Basic

/-!
# Workspace folders

The folder of a path is the deepest one that contains it, component by component; of folders with
the same root, the earliest.
-/

set_option autoImplicit false

namespace FormatServer

/-- A folder the editor has open. -/
structure Folder where
  uri : String
  name : String
  deriving DecidableEq, Repr, Inhabited

namespace Folder

/-- The root of a folder, none if its URI has an empty path. -/
def root? (f : Folder) : Except Fault (Option Path) :=
  (Uri.toPath f.uri).map fun p => if p = "" then none else some (Path.parse p)

/-- A folder together with its root. -/
def withRoot (f : Folder) : Except Fault (Option (Folder × Path)) :=
  f.root?.map fun r? => r?.map fun r => (f, r)

/-- The folders with their roots, those without one left out. -/
def rooted (folders : List Folder) : Except Fault (List (Folder × Path)) :=
  (folders.mapM withRoot).map (·.filterMap id)

/-- The deeper of two folders, the first one if they are equally deep. -/
def deeper (best? : Option (Folder × Path)) (f : Folder × Path) : Option (Folder × Path) :=
  match best? with
  | none => some f
  | some best => if best.2.depth < f.2.depth then some f else some best

/-- The deepest folder that contains a path, with its root. -/
def containing (folders : List Folder) (path : String) :
    Except Fault (Option (Folder × Path)) :=
  (rooted folders).map fun fs =>
    (fs.filter fun f => f.2.contains (Path.parse path)).foldl deeper none

/-- The folders after some were removed and some added: the kept ones, then the added ones that are
not among them. -/
def update (folders added removed : List Folder) : List Folder :=
  let kept := folders.filter fun f => !(removed.map Folder.uri).contains f.uri
  kept ++ added.filter fun f => !(kept.map Folder.uri).contains f.uri

end Folder

end FormatServer
