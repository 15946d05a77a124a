import FormatServer.Proofs.Installation.Moves
import FormatServer.Session.Task

/-!
# How requests move the world

Calls of an engine, looking for local configuration and announcing a request are made of a few actions
of the world. Along whatever relation those move the world, these do too.
-/

set_option autoImplicit false

namespace FormatServer

open Act World Installation

variable {R : World → World → Prop}

/-! ## Engines -/

namespace Engine

variable (hR : Moving R) {e : Engine}
include hR

theorem format_moves {text : String} {options : Fields}
    (hcall : Moves R (e.call "format" (.obj [("text", .str text), ("options", .obj options)]))) :
    Moves R (e.format text options) := by
  unfold format
  refine .bind hR hcall fun result => ?_
  split
  · exact .pure hR _
  · exact .fail hR _

theorem fileInfo_moves {path : String} {options : Fields}
    (hcall : Moves R (e.call "getFileInfo" (.obj [("path", .str path), ("options", .obj options)]))) :
    Moves R (e.fileInfo path options) := by
  unfold fileInfo
  exact .bind hR hcall fun _ => .ofExcept hR _

theorem resolveConfig_moves {path : String} {options : Fields}
    (hcall : Moves R
      (e.call "resolveConfig" (.obj [("path", .str path), ("options", .obj options)]))) :
    Moves R (e.resolveConfig path options) := by
  unfold resolveConfig
  refine .bind hR hcall fun result => ?_
  split <;> exact .pure hR _

theorem configFile_moves {path : String}
    (hcall : Moves R (e.call "resolveConfigFile" (.obj [("path", .str path)]))) :
    Moves R (e.configFile path) := by
  unfold configFile
  exact .bind hR hcall fun _ => .pure hR _

end Engine

/-! ## Files of configuration -/

namespace LocalConfiguration

section
variable (hR : Moving R)
include hR

/-- No file is named unless the settings name one. -/
theorem namedFile_runs (path : String) (settings : Settings) (w : World) :
    Runs R (namedFile path settings) w fun file _ => settings.configPath = none → file = none := by
  unfold namedFile
  split
  · exact .pure hR fun _ => rfl
  · next h =>
    refine .bind hR (P := fun _ _ => True) (.get hR trivial) fun v _ _ _ => ?_
    refine .ofExcept hR fun _ _ h' => ?_
    rw [h] at h'
    cases h'
  · exact .throw hR _

end

section
variable (h : Logs R)
include h

theorem ask_moves {e : Engine} {path : String} {settings : Settings} {file : Option String}
    (hfile : Moves R (e.call "resolveConfigFile" (.obj [("path", .str path)])))
    (hoptions : Moves R (e.call "resolveConfig"
      (.obj [("path", .str path), ("options", .obj (lookupOptions settings file))]))) :
    Moves R (ask e path settings file) := by
  have hR := h.moving
  unfold ask hasFile
  refine .bind hR ?_ fun governed => ?_
  · cases file with
    | some f => exact .pure hR _
    | none => exact .bind hR (Engine.configFile_moves hR hfile) fun _ => .pure hR _
  · split
    · exact .bind hR (h.log _ _ (by decide)) fun _ => .pure hR _
    · refine .bind hR (Engine.resolveConfig_moves hR hoptions) fun options? => ?_
      cases options? <;> exact .pure hR _

theorem withEngine_moves {e : Engine} {path : String} {settings : Settings}
    (herror : ∀ message, Moves R (log Level.error message))
    (hask : ∀ file, (settings.configPath = none → file = none) →
      Moves R (ask e path settings file)) :
    Moves R (withEngine e path settings) := by
  have hR := h.moving
  intro w
  unfold withEngine
  refine (Runs.bind hR (namedFile_runs hR path settings w) (Q := fun _ _ => True)
    fun file t _ hfile => ?_).moves
  refine .bind hR (((hask file hfile).recover .engine).runs t) fun config u _ _ => ?_
  cases config with
  | ok config => exact .pure hR trivial
  | error f => exact .bind hR ((herror _).runs u) fun _ v _ _ => .pure hR trivial

end

/-- Looking for the local configuration of a document moves the world as looking for its engine and
asking it does. -/
theorem find_moves (hR : Moving R) {d : Snapshot} {settings : Settings} {E : Engine → Prop} {w : World}
    (hengine : ∀ path, Runs R (Installation.engine? path settings) w
      fun e? _ => ∀ e, e? = some e → E e)
    (hwith : ∀ e path, E e → Moves R (withEngine e path settings)) :
    R w (find d settings w).2 := by
  refine Runs.moves (R := R) (Q := fun _ _ => True) ?_
  unfold find
  split
  · exact .pure hR trivial
  · cases hpath : d.path with
    | error e => exact ⟨hR.refl w, fun _ _ => trivial⟩
    | ok path =>
      refine Runs.bind hR (.ofExcept hR (Q := fun a v => a = path ∧ v = w) fun a ha => ?_) ?_
      · cases ha
        exact ⟨rfl, rfl⟩
      rintro _ _ _ ⟨rfl, rfl⟩
      refine Runs.bind hR ((hengine _).recover .module) fun outcome t _ hP => ?_
      match outcome with
      | .ok (some e) => exact (hwith e _ (hP _ rfl e rfl)).runs t
      | .ok none => exact .pure hR trivial
      | .error _ => exact .pure hR trivial

end LocalConfiguration

theorem IgnoreFile.find_moves (hR : Moving R) (path : String) (setting : Json) :
    Moves R (IgnoreFile.find path setting) := by
  unfold IgnoreFile.find
  split
  · exact .pure hR _
  · split
    · exact .bind hR (.get hR) fun _ => .ofExcept hR _
    · exact .throw hR _

/-! ## Requests -/

/-- Announcing itself a request only logs. -/
theorem Request.announce_moves (h : Logs R) (r : Request) : Moves R r.announce := by
  have hR := h.moving
  have announce (d : Snapshot) : Moves R (Pipeline.announce World.collaborators d) :=
    .bind hR (h.log Level.info _ (by decide)) fun _ => .ofExcept hR _
  unfold Request.announce
  cases r with
  | settings uri => exact .pure hR _
  | engine path => exact .bind hR (.ofExcept hR _) fun _ => .pure hR _
  | text d source request => exact .bind hR (announce d) fun _ => .pure hR _
  | edits d request label => exact .bind hR (announce d) fun _ => .pure hR _

end FormatServer
