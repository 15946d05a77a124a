import FormatServer.Files
import FormatServer.Json.Display
import FormatServer.Json.Reader
import FormatServer.Failure
import FormatServer.Text.Utf8

/-!
# Package manifests

A directory is an installation of the formatter if its manifest is an object in UTF-8 JSON with the
formatter's name.
-/

set_option autoImplicit false

namespace FormatServer.Installation

/-- The name in the formatter's manifest. -/
def packageName : String := "prettier"

/-- The manifest of a module. -/
def manifestPath (modulePath : String) : Path :=
  (Path.parse modulePath).join (Path.parse "package.json")

/-- The text of the manifest of a module. -/
def manifestText? (files : Files) (modulePath : String) : Option (List Char) :=
  (files.read? (manifestPath modulePath).toString).bind Text.decode?

/-- The JSON value in the manifest of a module. -/
def manifest (limits : Limits) (files : Files) (modulePath : String) : Except Fault Json :=
  match (manifestText? files modulePath).elim (.error .malformed) (Json.Reader.read limits) with
  | .ok v => .ok v
  | .error .malformed => .error (.failure (.unreadableManifest modulePath))
  | .error (.tooDeep container) => .error (.nestedTooDeep container)

/-- A value is the manifest of the formatter. -/
def isManifest (v : Json) : Bool :=
  match v.get? "name" with
  | some (.str s) => s = packageName
  | _ => false

/-- The version that a manifest states. -/
def version (manifest : Json) : String := ((manifest.get? "version").getD (.str "")).display

/-- The version of the installation at a path. -/
def readVersion (limits : Limits) (files : Files) (modulePath : String) :
    Except Fault String := do
  let v ← manifest limits files modulePath
  if isManifest v then return version v
  else .error (.failure (.foreignPackage modulePath))

end FormatServer.Installation
