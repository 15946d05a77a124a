import FormatServer.Proofs.Path.Base
import FormatServer.Proofs.Settings
import FormatServer.Proofs.World.Frame

/-!
# Formatting under safe settings

With safe settings an untrusted server finds the bundled module only (`Installation.find_safe`), and
asks it nothing that settings or the workspace choose (`Launch.Confined`, `Settings.Safe.formats`).
-/

set_option autoImplicit false

namespace FormatServer

open Act

/-- The process runs the bundled module. Configuration is resolved without `.editorconfig` and without
a file that settings name, files are inspected outside `node_modules` and with no ignore file of
another name. -/
structure Launch.Confined (bundled : Json) (l : Launch) : Prop where
  runs : ∃ program modulePath method, l.command = .node program modulePath method ∧
    bundled = .str modulePath
  resolveConfig : ∀ program modulePath payload,
    l.command = .node program modulePath "resolveConfig" → l.stdin = some payload →
    ∃ options, payload.get? "options" = some (.obj options) ∧
      Fields.get? options "editorconfig" = some (.bool false) ∧ Fields.get? options "config" = none
  fileInfo : ∀ program modulePath payload,
    l.command = .node program modulePath "getFileInfo" → l.stdin = some payload →
    ∃ options, payload.get? "options" = some (.obj options) ∧
      Fields.get? options "withNodeModules" = some (.bool false) ∧
      (Fields.get? options "ignorePath" = none ∨
        ∃ f, Fields.get? options "ignorePath" = some (.str f) ∧ Spelling.base f = ".prettierignore")

/-! ## What is found under safe settings -/

namespace Installation

/-- In an untrusted workspace only the bundled module is left. -/
theorem find_safe {settings : Settings} (h : settings.Safe) {w : World} (hw : w.trusted = false)
    (path : String) : find path settings w = bundledModule w := by
  have hlocal : localModule path w = (.ok none, w) := by
    unfold localModule
    rw [bind_ok (rfl : (get : Act World World) w = (.ok w, w)), hw]
    rfl
  have hglobal : globalModule path settings w = (.ok none, w) := by
    unfold globalModule
    rw [h.resolveGlobalModules]
    rfl
  unfold find
  rw [h.prettierPath]
  dsimp only
  rw [bind_ok hlocal]
  dsimp only
  rw [bind_ok hglobal]

theorem load_runs {M : Message → Prop} {L : Launch → Prop} (modulePath : String) (w : World) :
    Runs (World.Frame M L) (load modulePath) w fun found _ => found.modulePath = modulePath := by
  have hR := World.Frame.moving (M := M) (L := L)
  unfold load
  refine .bind hR (P := fun _ _ => True) (.get hR trivial) fun v _ _ _ => ?_
  exact .bind hR (P := fun _ _ => True) (.ofExcept hR fun _ _ => trivial) fun _ _ _ _ => .pure hR rfl

theorem bundledModule_runs {M : Message → Prop} {L : Launch → Prop} (w : World) :
    Runs (World.Frame M L) bundledModule w fun found? _ =>
      ∀ f, found? = some f → w.config.bundledPrettierPath = .str f.modulePath := by
  have hR := World.Frame.moving (M := M) (L := L)
  unfold bundledModule
  refine .bind hR (P := fun v _ => v = w) (.get hR rfl) fun v t _ hv => ?_
  subst hv
  dsimp only
  split
  · next s hs =>
    split
    · exact .pure hR fun f h => by cases h
    · refine .bind hR (load_runs s t) fun found _ _ hfound => .pure hR fun f h => ?_
      cases h
      rw [hs, hfound]
  · split
    · exact .throw hR _
    · exact .pure hR fun f h => by cases h

end Installation

theorem IgnoreFile.find_runs {M : Message → Prop} {L : Launch → Prop} (path : String) (w : World) :
    Runs (World.Frame M L) (IgnoreFile.find path (.str defaultIgnorePath)) w fun file? _ =>
      ∀ f, file? = some f → Spelling.base f = defaultIgnorePath := by
  have hR := World.Frame.moving (M := M) (L := L)
  unfold find
  split
  · exact .pure hR fun f h => by cases h
  · refine .bind hR (P := fun _ _ => True) (.get hR trivial) fun v _ _ _ => ?_
    refine .ofExcept hR fun file? hfile f hf => ?_
    subst hf
    exact base_locate hfile

/-! ## What is asked under safe settings -/

/-- A call of a method about whose payload nothing is said. -/
theorem Engine.mayCall {bundled : Json} {e : Engine} (he : bundled = .str e.modulePath)
    {method : String} (hresolve : method ≠ "resolveConfig") (hinfo : method ≠ "getFileInfo")
    (payload : Json) : e.MayCall (Launch.Confined bundled) method payload := fun read _ => by
  refine ⟨⟨_, _, _, rfl, he⟩, fun _ _ _ h => ?_, fun _ _ _ h => ?_⟩
  · injection h with _ _ h
    exact absurd h hresolve
  · injection h with _ _ h
    exact absurd h hinfo

theorem Engine.mayResolveConfig {bundled : Json} {e : Engine} (he : bundled = .str e.modulePath)
    {settings : Settings} (h : settings.Safe) (path : String) :
    e.MayCall (Launch.Confined bundled) "resolveConfig" (.obj [("path", .str path),
      ("options", .obj (LocalConfiguration.lookupOptions settings none))]) := fun read hread => by
  refine ⟨⟨_, _, _, rfl, he⟩, fun _ _ payload _ hpayload => ?_, fun _ _ _ h => ?_⟩
  · obtain rfl | rfl := hread <;> cases hpayload
    refine ⟨_, rfl, ?_, rfl⟩
    show some (Json.bool settings.useEditorConfig) = _
    rw [h.useEditorConfig]
  · injection h with _ _ h
    exact absurd h (by decide)

theorem Engine.mayInspect {bundled : Json} {e : Engine} (he : bundled = .str e.modulePath)
    {settings : Settings} (h : settings.Safe) (path : String) {file? : Option String}
    (hfile : ∀ f, file? = some f → Spelling.base f = defaultIgnorePath) :
    e.MayCall (Launch.Confined bundled) "getFileInfo" (.obj [("path", .str path),
      ("options", .obj (Pipeline.fileInfoOptions settings file?))]) := fun read hread => by
  refine ⟨⟨_, _, _, rfl, he⟩, fun _ _ _ h => ?_, fun _ _ payload _ hpayload => ?_⟩
  · injection h with _ _ h
    exact absurd h (by decide)
  · obtain rfl | rfl := hread <;> cases hpayload
    refine ⟨_, rfl, ?_, ?_⟩
    · show some (Json.bool settings.withNodeModules) = _
      rw [h.withNodeModules]
    · cases file? with
      | none => exact .inl rfl
      | some f => exact .inr ⟨f, rfl, hfile f rfl⟩

/-- With safe settings an untrusted server formats with the bundled module only. -/
theorem Settings.Safe.formats {settings : Settings} (h : settings.Safe) (M : Message → Prop)
    (config : ServerConfig) :
    World.Formats M (Launch.Confined config.bundledPrettierPath)
      (fun w => w.trusted = false ∧ w.config = config)
      (fun modulePath => config.bundledPrettierPath = .str modulePath)
      (fun f => Spelling.base f = defaultIgnorePath) settings where
  keeps hw hI := ⟨hw.trusted.trans hI.1, hw.config.trans hI.2⟩
  find path w hI := by
    have hfind := Installation.bundledModule_runs (M := M)
      (L := Launch.Confined config.bundledPrettierPath) w
    rw [hI.2] at hfind
    exact ⟨by rw [Installation.find_safe h hI.1]; exact hfind.moves,
      by rw [Installation.find_safe h hI.1]; exact hfind.returns⟩
  ignoreFile path w _ := by
    rw [h.ignorePath]
    exact IgnoreFile.find_runs path w
  engine _ e _ _ he :=
    { localConfig := fun path file hfile => by
        rw [hfile h.configPath]
        exact ⟨Engine.mayCall he (by decide) (by decide) _, Engine.mayResolveConfig he h path⟩
      fileInfo := fun path file? hfile => Engine.mayInspect he h path hfile
      languages := Engine.mayCall he (by decide) (by decide) _
      format := fun text options => Engine.mayCall he (by decide) (by decide) _ }

end FormatServer
