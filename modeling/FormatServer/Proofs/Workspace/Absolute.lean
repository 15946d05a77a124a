import FormatServer.IgnoreFile
import FormatServer.Proofs.LocalConfiguration.Outcome
import FormatServer.Proofs.Workspace.Folder

/-!
# Absolute paths in the settings

An absolute path in the settings needs no folder to be resolved against, but it is not taken without
one (`resolve_absolute`). What that comes to depends on who asks (`Taken`): the search for a module
takes the path all the same, an engine is then asked as if the settings named no file, and no ignore
file is found.
-/

set_option autoImplicit false

namespace FormatServer.Workspace

open Act LocalConfiguration

variable {home file path setting : String} {folders : List Folder}

/-! ## Resolving -/

theorem resolve_absolute (hsetting : Spelling.isAbsolute setting = true) :
    resolve home folders file setting =
      (Folder.containing folders file).map fun found? => found?.map fun _ => setting := by
  unfold resolve
  have hhead : setting.toList.head? = some '/' := by simpa [Spelling.isAbsolute] using hsetting
  rw [hhead, if_neg (by simp)]
  simp only [hsetting, if_true]

theorem resolve_of_contained (hsetting : Spelling.isAbsolute setting = true)
    (hfolders : Folder.Legible folders) (h : Folder.Contained folders file) :
    resolve home folders file setting = .ok (some setting) := by
  obtain ⟨found?, hfound⟩ := Folder.containing_orderly hfolders file
  obtain ⟨found, rfl⟩ := Option.isSome_iff_exists.1 ((Folder.containing_isSome_iff hfound).2 h)
  rw [resolve_absolute hsetting, hfound]
  rfl

theorem resolve_of_not_contained (hsetting : Spelling.isAbsolute setting = true)
    (hfolders : Folder.Legible folders) (h : ¬ Folder.Contained folders file) :
    resolve home folders file setting = .ok none := by
  obtain ⟨found?, hfound⟩ := Folder.containing_orderly hfolders file
  rw [← Folder.containing_isSome_iff hfound, Option.not_isSome_iff_eq_none] at h
  rw [resolve_absolute hsetting, hfound, h]
  rfl

theorem resolve_of_not_legible (hsetting : Spelling.isAbsolute setting = true)
    (hfolders : ¬ Folder.Legible folders) :
    resolve home folders file setting = .error .malformedUri := by
  rw [resolve_absolute hsetting, Folder.containing_of_not_legible hfolders]
  rfl

/-! ## Who asks -/

/-- What an absolute path in the settings comes to for a document at a path. -/
structure Taken (w : World) (path setting : String) : Prop where
  /-- It is the module that is examined, whichever folders there are. -/
  module : ∀ settings, settings.prettierPath = some (.str setting) → Folder.Legible w.folders →
    Installation.find path settings w =
      ((Installation.readVersion w.limits w.files setting).map fun version =>
        some ⟨setting, version⟩, w)
  /-- In a folder it is the file that the engine is asked with, once. -/
  configured : ∀ d settings e v, d.isFile = true → d.path = .ok path →
    settings.configPath = some (.str setting) →
    Installation.engine? path settings w = (.ok (some e), v) →
    Folder.Legible w.folders → Folder.Contained w.folders path →
    ∃ reply, Asked e path [.options [("editorconfig", .bool settings.useEditorConfig),
      ("config", .str setting)] reply] v (LocalConfiguration.find d settings w).2
  /-- Outside of all folders the engine is asked as if the settings named no file. -/
  unconfigured : ∀ d settings e v, d.isFile = true → d.path = .ok path →
    settings.configPath = some (.str setting) →
    Installation.engine? path settings w = (.ok (some e), v) →
    Folder.Legible w.folders → ¬ Folder.Contained w.folders path →
    ∃ inquiries, Asked e path inquiries v (LocalConfiguration.find d settings w).2 ∧
      (∃ reply, .file reply ∈ inquiries) ∧ ∀ options reply, .options options reply ∈ inquiries →
        options = [("editorconfig", .bool settings.useEditorConfig)]
  /-- In a folder it is the ignore file if it exists. -/
  ignored : Folder.Legible w.folders → Folder.Contained w.folders path →
    IgnoreFile.find path (.str setting) w =
      (.ok (if w.files.has setting then some setting else none), w)
  /-- Outside of all folders there is no ignore file. -/
  unignored : Folder.Legible w.folders → ¬ Folder.Contained w.folders path →
    IgnoreFile.find path (.str setting) w = (.ok none, w)
  /-- A folder without a URI is a fault for all who ask. -/
  illegible : ¬ Folder.Legible w.folders →
    (∀ settings, settings.prettierPath = some (.str setting) →
      Installation.find path settings w = (.error .malformedUri, w)) ∧
    (∀ d settings e v, d.isFile = true → d.path = .ok path →
      settings.configPath = some (.str setting) →
      Installation.engine? path settings w = (.ok (some e), v) →
      LocalConfiguration.find d settings w = (.error .malformedUri, v)) ∧
    IgnoreFile.find path (.str setting) w = (.error .malformedUri, w)

variable {w : World}

/-- An engine that has been looked for leaves the file as it is that the settings name. -/
theorem namedConfig_of_engine {settings : Settings} {r : Except Fault (Option Engine)} {v : World}
    (he : Installation.engine? path settings w = (r, v)) :
    namedConfig v path settings = namedConfig w path settings := by
  have hframe := Installation.engine?_frame path settings w
  rw [he] at hframe
  exact namedConfig_frame hframe path settings

theorem namedPath_absolute (hsetting : Spelling.isAbsolute setting = true)
    (hfolders : Folder.Legible w.folders) :
    Installation.namedPath w path (.str setting) = .ok setting := by
  by_cases h : Folder.Contained w.folders path
  · simp only [Installation.namedPath, resolve_of_contained hsetting hfolders h, Except.bind]
  · simp only [Installation.namedPath, resolve_of_not_contained hsetting hfolders h, Except.bind,
      hsetting, if_true]

theorem find_of_namedPath {settings : Settings} {r : Except Fault String}
    (hprettier : settings.prettierPath = some (.str setting))
    (hnamed : Installation.namedPath w path (.str setting) = r) :
    Installation.find path settings w = (r.bind fun m =>
      (Installation.readVersion w.limits w.files m).map fun version => some ⟨m, version⟩, w) := by
  unfold Installation.find
  rw [hprettier]
  dsimp only
  rw [bind_apply, Installation.explicitPath_apply, hnamed]
  cases r with
  | error f => rfl
  | ok m =>
    dsimp only [Except.bind]
    rw [map_apply, Installation.load_apply]
    cases Installation.readVersion w.limits w.files m <;> rfl

/-- An absolute name is not searched for. -/
theorem ignoreFile_absolute (hpath : Spelling.isAbsolute path = true)
    (hsetting : Spelling.isAbsolute setting = true) :
    IgnoreFile.find path (.str setting) w = ((resolve w.home w.folders path setting).map
      fun named? => named?.filter w.files.has, w) := by
  unfold IgnoreFile.find
  simp only [hpath, Bool.not_true, Bool.false_eq_true, if_false]
  rw [bind_ok (rfl : (get : Act World World) w = (.ok w, w))]
  unfold IgnoreFile.locate
  simp only [hsetting, if_true]
  cases resolve w.home w.folders path setting with
  | error f => rfl
  | ok named? =>
    dsimp only [bind, Except.bind, Except.map]
    cases named?.filter w.files.has <;> rfl

/-- An absolute path is a module everywhere, and any other file only in a folder. -/
theorem absolute_taken (w : World) (hpath : Spelling.isAbsolute path = true)
    (hsetting : Spelling.isAbsolute setting = true) : Taken w path setting where
  module settings hprettier hfolders :=
    find_of_namedPath hprettier (namedPath_absolute hsetting hfolders)
  configured d settings e v hd hdpath hconfig he hfolders hcontained := by
    have hfile : namedConfig v path settings = .ok (some setting) := by
      rw [namedConfig_of_engine he]
      simp only [namedConfig, hconfig, resolve_of_contained hsetting hfolders hcontained]
    obtain ⟨inquiries, r, hasked, hinquired, -⟩ := withEngine_inquired (e := e) v hfile
    rw [find_of_engine hd hdpath he]
    cases hinquired with
    | named _ reply => exact ⟨reply, hasked⟩
  unconfigured d settings e v hd hdpath hconfig he hfolders hcontained := by
    have hfile : namedConfig v path settings = .ok none := by
      rw [namedConfig_of_engine he]
      simp only [namedConfig, hconfig, resolve_of_not_contained hsetting hfolders hcontained]
    obtain ⟨inquiries, r, hasked, hinquired, -⟩ := withEngine_inquired (e := e) v hfile
    have hclassified := hinquired.classified path
    rw [find_of_engine hd hdpath he]
    exact ⟨inquiries, hasked, hclassified.asks_file_iff.2 rfl, hclassified.carried⟩
  ignored hfolders hcontained := by
    rw [ignoreFile_absolute hpath hsetting, resolve_of_contained hsetting hfolders hcontained]
    simp only [Except.map, Option.filter_some]
  unignored hfolders hcontained := by
    rw [ignoreFile_absolute hpath hsetting, resolve_of_not_contained hsetting hfolders hcontained]
    rfl
  illegible hfolders := by
    have hresolve : resolve w.home w.folders path setting = .error .malformedUri :=
      resolve_of_not_legible hsetting hfolders
    refine ⟨fun settings hprettier => ?_, fun d settings e v hd hdpath hconfig he => ?_, ?_⟩
    · refine find_of_namedPath hprettier (r := .error .malformedUri) ?_
      simp only [Installation.namedPath, hresolve, Except.bind]
    · rw [find_of_engine hd hdpath he]
      refine withEngine_error ?_
      rw [namedConfig_of_engine he]
      simp only [namedConfig, hconfig, hresolve]
    · rw [ignoreFile_absolute hpath hsetting, hresolve]
      rfl

/-- The ignore file of a document without a folder, and with one. -/
theorem absolute_taken_ignore :
    let w := fun folders => ({ files := Files.write {} "/etc/ignore" (.file []), folders } : World)
    let run := fun folders => (IgnoreFile.find "/work/a.js" (.str "/etc/ignore") (w folders)).1
    run [] = .ok none ∧ run [⟨"file:///work", "work"⟩] = .ok (some "/etc/ignore") ∧
      ∀ folders, Taken (w folders) "/work/a.js" "/etc/ignore" :=
  ⟨by decide +kernel, by decide +kernel, fun _ => absolute_taken _ (by decide) (by decide)⟩

end FormatServer.Workspace
