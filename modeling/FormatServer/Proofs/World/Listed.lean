import FormatServer.Proofs.Installation.Manifest
import FormatServer.Proofs.World.Frame

/-!
# The processes that a request starts

A module is run only after its manifest has been read and names the formatter
(`Installation.Installed`, `find_installed`), and only by the methods of the bridge; a package
manager is started only by one of the commands that print a global root, and only under settings that
ask for global modules and name no module (`Launch.Listed`). `World.formats_listed` says so of a whole
request.
-/

set_option autoImplicit false

namespace FormatServer

open Act

/-! ## The list -/

/-- A directory is an installation of the formatter: its manifest can be read, and is an object in
UTF-8 JSON with the formatter's name. -/
def Installation.Installed (limits : Limits) (files : Files) (modulePath : String) : Prop :=
  ∃ content text fields, files.read? (manifestPath modulePath).toString = some content ∧
    Text.decode? content = some text ∧ Json.Reader.read limits text = .ok (.obj fields) ∧
    Fields.get? fields "name" = some (.str packageName)

/-- The commands that print a global root. -/
def Installation.rootCommands : List (List String) :=
  [["npm", "root", "-g"], ["pnpm", "root", "-g"], ["yarn", "global", "dir"]]

/-- The methods of the bridge. -/
def Engine.methods : List String :=
  ["format", "getFileInfo", "getSupportInfo", "resolveConfig", "resolveConfigFile"]

/-- The process is one of those that a server may start. It prints a global root, under settings in
`S` that ask for global modules and name no module, or it calls a method of an installed module with
a program in `N`. -/
inductive Launch.Listed (limits : Limits) (files : Files) (N : Json → Prop) (S : Settings → Prop)
    (l : Launch) : Prop
  | root {command : List String} {settings : Settings} :
      l.command.argv = command.map Json.str → command ∈ Installation.rootCommands →
      S settings → settings.resolveGlobalModules = true → settings.prettierPath = none →
      Listed limits files N S l
  | method {program : Json} {modulePath method : String} :
      l.command.argv = [program, .str "-e", .str bridgeScript, .str modulePath, .str method] →
      N program → Installation.Installed limits files modulePath → method ∈ Engine.methods →
      Listed limits files N S l

theorem Launch.Listed.mono {limits : Limits} {files : Files} {N N' : Json → Prop}
    {S S' : Settings → Prop} {l : Launch} (h : l.Listed limits files N S) (hN : ∀ p, N p → N' p)
    (hS : ∀ s, S s → S' s) : l.Listed limits files N' S' := by
  cases h with
  | root hargv hcommand hs hglobal hpath => exact .root hargv hcommand (hS _ hs) hglobal hpath
  | method hargv hp hinstalled hmethod => exact .method hargv (hN _ hp) hinstalled hmethod

variable {M : Message → Prop} {L : Launch → Prop} {limits : Limits} {files : Files}

/-! ## What is found -/

namespace Installation

/-- A version can be read of what is an installation, and of nothing else. -/
theorem readVersion_iff {modulePath : String} :
    (∃ version, readVersion limits files modulePath = .ok version) ↔
      Installed limits files modulePath := by
  simp only [readVersion_ok_iff, Usable, manifestText?, Option.bind_eq_some_iff, Installed]
  constructor
  · rintro ⟨_, text, fields, ⟨content, hcontent, htext⟩, hv, hname, -⟩
    exact ⟨content, text, fields, hcontent, htext, hv, hname⟩
  · rintro ⟨content, text, fields, hcontent, htext, hv, hname⟩
    exact ⟨_, text, fields, ⟨content, hcontent, htext⟩, hv, hname, rfl⟩

/-- A value of `rootCommand?` makes one of the commands. -/
theorem rootCommand?_some {manager : String} {arguments : List String} {below : Option String}
    (h : rootCommand? manager = some (arguments, below)) : manager :: arguments ∈ rootCommands := by
  unfold rootCommand? at h
  split at h <;> cases h <;> simp [rootCommands]

/-- What installations a world has: the files are these, and are read within these limits. -/
structure Reads (limits : Limits) (files : Files) (w : World) : Prop where
  limits : w.limits = limits
  files : w.files = files

theorem Reads.after {w w' : World} (h : Reads limits files w) (hframe : World.Frame M L w w') :
    Reads limits files w' :=
  ⟨hframe.limits.trans h.limits, hframe.files.trans h.files⟩

theorem load_installed (modulePath : String) {w : World} (hw : Reads limits files w) :
    Runs (World.Frame M L) (load modulePath) w fun found _ =>
      Installed limits files found.modulePath := by
  have hR := World.Frame.moving (M := M) (L := L)
  unfold load
  refine .bind hR (P := fun v _ => v = w) (.get hR rfl) ?_
  rintro v t _ rfl
  refine .bind hR (P := fun _ _ => Installed limits files modulePath)
    (.ofExcept hR fun version h => ?_) fun version u _ h => .pure hR h
  rw [hw.limits, hw.files] at h
  exact readVersion_iff.1 ⟨version, h⟩

theorem tryLoad_installed (modulePath skipping : String) {w : World} (hw : Reads limits files w) :
    Runs (World.Frame M L) (tryLoad modulePath skipping) w fun found? _ =>
      ∀ f, found? = some f → Installed limits files f.modulePath := by
  have hR := World.Frame.moving (M := M) (L := L)
  unfold tryLoad
  refine .bind hR (.recover (load_installed modulePath hw) .module) fun outcome t _ h => ?_
  cases outcome with
  | ok found =>
    refine .pure hR fun f hf => ?_
    cases hf
    exact h found rfl
  | error f =>
    exact .bind hR ((log_frame _ _).runs t) fun _ _ _ _ => .pure hR fun f hf => by cases hf

theorem localModule_installed (path : String) {w : World} (hw : Reads limits files w) :
    Runs (World.Frame M L) (localModule path) w fun found? _ =>
      ∀ f, found? = some f → Installed limits files f.modulePath := by
  have hR := World.Frame.moving (M := M) (L := L)
  unfold localModule
  refine .bind hR (P := fun _ t => Reads limits files t) (.get hR hw) fun v t _ ht => ?_
  split
  · refine .bind hR (P := fun _ t => Reads limits files t)
      (.ofExcept hR fun _ _ => ht) fun p? u _ hu => ?_
    cases p? with
    | some p => exact tryLoad_installed _ _ hu
    | none => exact .pure hR fun f hf => by cases hf
  · exact .pure hR fun f hf => by cases hf

theorem bundledModule_installed {w : World} (hw : Reads limits files w) :
    Runs (World.Frame M L) bundledModule w fun found? _ =>
      ∀ f, found? = some f → Installed limits files f.modulePath := by
  have hR := World.Frame.moving (M := M) (L := L)
  unfold bundledModule
  refine .bind hR (P := fun _ t => Reads limits files t) (.get hR hw) fun v t _ ht => ?_
  dsimp only
  split
  · split
    · exact .pure hR fun f hf => by cases hf
    · refine .bind hR (load_installed _ ht) fun found _ _ h => .pure hR fun f hf => ?_
      cases hf
      exact h
  · split
    · exact .throw hR _
    · exact .pure hR fun f hf => by cases hf

section
variable {path : String} {settings : Settings}

theorem globalModule_installed (ha : settings.resolveGlobalModules = true → MayAsk M L) {w : World}
    (hw : Reads limits files w) :
    Runs (World.Frame M L) (globalModule path settings) w fun found? _ =>
      ∀ f, found? = some f → Installed limits files f.modulePath := by
  have hR := World.Frame.moving (M := M) (L := L)
  unfold globalModule
  split
  · next h =>
    refine .bind hR ((packageManagerFor_frame (ha h) path settings).runs w) fun manager t ht _ => ?_
    refine .bind hR ((globalRoot_frame (ha h) manager).runs t) fun root? u hu _ => ?_
    cases root? with
    | some root => exact tryLoad_installed _ _ ((hw.after ht).after hu)
    | none => exact .pure hR fun f hf => by cases hf
  · exact .pure hR fun f hf => by cases hf

/-- A search finds installed modules only. -/
theorem find_installed
    (ha : settings.prettierPath = none → settings.resolveGlobalModules = true → MayAsk M L)
    {w : World} (hw : Reads limits files w) :
    Runs (World.Frame M L) (find path settings) w fun found? _ =>
      ∀ f, found? = some f → Installed limits files f.modulePath := by
  have hR := World.Frame.moving (M := M) (L := L)
  have found : ∀ {found : Found} {v : World}, Installed limits files found.modulePath →
      Runs (World.Frame M L) (pure (some found)) v fun found? _ =>
        ∀ f, found? = some f → Installed limits files f.modulePath := fun h =>
    .pure hR fun f hf => by cases hf; exact h
  unfold find
  cases hpath : settings.prettierPath with
  | some setting =>
    refine .bind hR ((explicitPath_frame path setting).runs w) fun modulePath t ht _ => ?_
    exact .bind hR (load_installed modulePath (hw.after ht)) fun _ _ _ h => found h
  | none =>
    refine .bind hR (localModule_installed path hw) fun found? t ht h => ?_
    cases found? with
    | some f => exact found (h f rfl)
    | none =>
      have ht := hw.after ht
      refine .bind hR (globalModule_installed (ha hpath) ht) fun found? u hu h => ?_
      cases found? with
      | some f => exact found (h f rfl)
      | none => exact bundledModule_installed (ht.after hu)

end

end Installation

/-! ## What is started -/

variable {N : Json → Prop} {S : Settings → Prop} {settings : Settings}

/-- Under settings in `S` package managers are started only by the commands that print a root. -/
theorem Installation.mayAsk_listed (hM : ∀ folderUri, M (.askPackageManager folderUri))
    (hs : S settings) (hpath : settings.prettierPath = none)
    (hglobal : settings.resolveGlobalModules = true) : MayAsk M (Launch.Listed limits files N S) where
  manager := hM
  root _ _ _ h := .root rfl (rootCommand?_some h) hs hglobal hpath

theorem Engine.mayFormat_listed {F : String → Prop} {e : Engine} (hprogram : N e.nodePath)
    (hmodule : Installation.Installed limits files e.modulePath) :
    e.MayFormat (Launch.Listed limits files N S) F settings := by
  have call : ∀ method payload, method ∈ methods →
      e.MayCall (Launch.Listed limits files N S) method payload := fun _ _ h _ _ =>
    .method rfl hprogram hmodule h
  exact
    { localConfig := fun path file _ => ⟨call _ _ (by simp [methods]), call _ _ (by simp [methods])⟩
      fileInfo := fun path file? _ => call _ _ (by simp [methods])
      languages := call _ _ (by simp [methods])
      format := fun text options => call _ _ (by simp [methods]) }

/-- The files are these, and every engine runs where it may. -/
structure World.Equipped (limits : Limits) (files : Files) (N : Json → Prop) (w : World) :
    Prop where
  reads : Installation.Reads limits files w
  config : N w.config.nodePath
  engines : ∀ e ∈ w.engines, N e.nodePath

theorem World.Frame.equipped {w w' : World} (h : World.Frame M L w w')
    (hw : w.Equipped limits files N) : w'.Equipped limits files N where
  reads := hw.reads.after h
  config := by rw [h.config]; exact hw.config
  engines e he := (h.engines e he).elim (hw.engines e) fun hpath => hpath ▸ hw.config

theorem World.formats_listed (hM : ∀ folderUri, M (.askPackageManager folderUri)) (hs : S settings) :
    World.Formats M (Launch.Listed limits files N S) (World.Equipped limits files N)
      (Installation.Installed limits files) (fun _ => True) settings where
  keeps h hw := h.equipped hw
  find _ _ hw := Installation.find_installed (Installation.mayAsk_listed hM hs) hw.reads
  ignoreFile path w _ := ⟨IgnoreFile.find_frame path _ w, fun _ _ _ _ => trivial⟩
  engine _ e he hw hmodule := Engine.mayFormat_listed (hw.engines e he) hmodule

end FormatServer
