import FormatServer.Proofs.Installation.Choice
import FormatServer.Proofs.LocalConfiguration.Inquiry

/-!
# What looking for local configuration comes to

With an engine the outcome is a matter of its answers (`Classified`), and whether there is an engine is
a matter of the search for a module; `find_resolved` says so of every document and every world.
-/

set_option autoImplicit false

namespace FormatServer

open Act

namespace LocalConfiguration

/-! ## Classes -/

/-- The outcome of a search with an engine is a matter of its answers. -/
structure Classified (e : Engine) (limits : Limits) (path : String) (settings : Settings)
    (file : Option String) (inquiries : List Inquiry) (result : Except Fault LocalConfig) : Prop where
  /-- The engine is asked at most once for the file and once for the options, in this order. -/
  once : (inquiries.map Inquiry.method).Sublist ["resolveConfigFile", "resolveConfig"]
  /-- It is asked for the file where none is named. -/
  asks_file_iff : (∃ reply, .file reply ∈ inquiries) ↔ file = none
  /-- It is asked for the options with the file that is named. -/
  carried : ∀ options reply, .options options reply ∈ inquiries →
    options = [("editorconfig", .bool settings.useEditorConfig)] ++
      (file.map fun f => ("config", Json.str f)).toList
  disabled_iff : result = .ok .disabled ↔ settings.requireConfig = true ∧ file = none ∧
    ∃ reply v, .file reply ∈ inquiries ∧ e.answer limits "resolveConfigFile" reply = .ok v ∧
      v.truthy = false
  unasked : result = .ok .disabled → ∀ options reply, .options options reply ∉ inquiries
  errored_iff : ∀ f, result = .ok (.errored f) ↔
    ∃ i ∈ inquiries, ∃ g, i.answer e limits = .error (.failure g) ∧
      f = .invalidConfiguration g.message path
  found_iff : ∀ fields, result = .ok (.found fields) ↔
    ∃ options reply, .options options reply ∈ inquiries ∧
      e.answer limits "resolveConfig" reply = .ok (.obj fields)
  missing_iff : result = .ok .missing ↔
    ∃ options reply v, .options options reply ∈ inquiries ∧
      e.answer limits "resolveConfig" reply = .ok v ∧ ∀ fields, v ≠ .obj fields
  /-- Any other fault in an answer is a fault. -/
  fault_iff : ∀ f, result = .error f ↔
    ∃ i ∈ inquiries, i.answer e limits = .error f ∧ ∀ g, f ≠ .failure g

section
variable (a : Except Fault Json) (path : String)

theorem concluded_ne_disabled : concluded path (a.map configIn) ≠ .ok .disabled := by
  cases a with
  | ok v => cases v <;> simp [concluded, configIn, Except.map]
  | error f => cases f <;> simp [concluded, Except.map]

theorem concluded_errored_iff (f : Failure) : concluded path (a.map configIn) = .ok (.errored f) ↔
    ∃ g, a = .error (.failure g) ∧ f = .invalidConfiguration g.message path := by
  cases a with
  | ok v => cases v <;> simp [concluded, configIn, Except.map]
  | error f => cases f <;> simp [concluded, Except.map, eq_comm]

theorem concluded_found_iff (fields : Fields) :
    concluded path (a.map configIn) = .ok (.found fields) ↔ a = .ok (.obj fields) := by
  cases a with
  | ok v => cases v <;> simp [concluded, configIn, Except.map]
  | error f => cases f <;> simp [concluded, Except.map]

theorem concluded_missing_iff : concluded path (a.map configIn) = .ok .missing ↔
    ∃ v, a = .ok v ∧ ∀ fields, v ≠ .obj fields := by
  cases a with
  | ok v => cases v <;> simp [concluded, configIn, Except.map]
  | error f => cases f <;> simp [concluded, Except.map]

theorem concluded_error_iff (f : Fault) : concluded path (a.map configIn) = .error f ↔
    a = .error f ∧ ∀ g, f ≠ .failure g := by
  cases a with
  | ok v => cases v <;> simp [concluded, configIn, Except.map]
  | error f' =>
    cases f'
    case failure g =>
      simp only [concluded, Except.map, Except.error.injEq, false_iff, reduceCtorEq]
      rintro ⟨rfl, h⟩
      exact h g rfl
    all_goals
      simp only [concluded, Except.map, Except.error.injEq, iff_self_and]
      rintro rfl g h
      cases h

end

section
variable {e : Engine} {limits : Limits} {settings : Settings} {file : Option String}
  {inquiries : List Inquiry}

/-- Where no file is missing that is required, the first failure decides, or else the options. -/
theorem classified_of_map (path : String) {a : Except Fault Json}
    (honce : (inquiries.map Inquiry.method).Sublist ["resolveConfigFile", "resolveConfig"])
    (hasks : (∃ reply, .file reply ∈ inquiries) ↔ file = none)
    (hcarried : ∀ options reply, .options options reply ∈ inquiries →
      options = lookupOptions settings file)
    (hopen : ¬ (settings.requireConfig = true ∧ file = none ∧ ∃ reply v, .file reply ∈ inquiries ∧
      e.answer limits "resolveConfigFile" reply = .ok v ∧ v.truthy = false))
    (herror : ∀ f, a = .error f ↔ ∃ i ∈ inquiries, i.answer e limits = .error f)
    (hok : ∀ v, a = .ok v ↔ ∃ options reply, .options options reply ∈ inquiries ∧
      e.answer limits "resolveConfig" reply = .ok v) :
    Classified e limits path settings file inquiries (concluded path (a.map configIn)) where
  once := honce
  asks_file_iff := hasks
  carried options reply hi := by
    rw [hcarried options reply hi]
    cases file <;> rfl
  disabled_iff := iff_of_false (concluded_ne_disabled a path) hopen
  unasked h := absurd h (concluded_ne_disabled a path)
  errored_iff f := by
    simp only [concluded_errored_iff, herror]
    constructor
    · rintro ⟨g, ⟨i, hi, ha⟩, hf⟩
      exact ⟨i, hi, g, ha, hf⟩
    · rintro ⟨i, hi, g, ha, hf⟩
      exact ⟨g, ⟨i, hi, ha⟩, hf⟩
  found_iff fields := by rw [concluded_found_iff, hok]
  missing_iff := by
    simp only [concluded_missing_iff, hok]
    constructor
    · rintro ⟨v, ⟨options, reply, hi, ha⟩, hv⟩
      exact ⟨options, reply, v, hi, ha, hv⟩
    · rintro ⟨options, reply, v, hi, ha, hv⟩
      exact ⟨v, ⟨options, reply, hi, ha⟩, hv⟩
  fault_iff f := by
    rw [concluded_error_iff, herror]
    constructor
    · rintro ⟨⟨i, hi, ha⟩, hf⟩
      exact ⟨i, hi, ha, hf⟩
    · rintro ⟨i, hi, ha, hf⟩
      exact ⟨⟨i, hi, ha⟩, hf⟩

theorem Inquired.classified {r : Except Fault LocalConfig}
    (h : Inquired e limits settings file inquiries r) (path : String) :
    Classified e limits path settings file inquiries (concluded path r) := by
  cases h with
  | failed reply f h =>
    have herror : (.error f : Except Fault LocalConfig) =
        (e.answer limits "resolveConfigFile" reply).map configIn := by
      rw [h]
      rfl
    rw [herror]
    apply classified_of_map <;> simp [Inquiry.answer, Inquiry.method, Inquiry.reply, h]
  | disabled reply v h hfalsy hrequired =>
    constructor <;>
      simp [Inquiry.answer, Inquiry.method, Inquiry.reply, concluded, h, hfalsy, hrequired]
  | unnamed reply reply' v h hopen =>
    apply classified_of_map
    case hopen => simpa [h, and_comm] using hopen
    all_goals simp [Inquiry.answer, Inquiry.method, Inquiry.reply, h]
  | named file reply =>
    apply classified_of_map <;> simp [Inquiry.answer, Inquiry.method, Inquiry.reply]

end

/-! ## The outcome -/

/-- What looking for the local configuration of a document comes to, and what it leaves. -/
structure Resolved (d : Snapshot) (settings : Settings) (w : World)
    (run : Except Fault LocalConfig × World) : Prop where
  /-- What is no file has none. -/
  virtual : d.isFile = false → run = (.ok .missing, w)
  lost : ∀ f, d.isFile = true → d.path = .error f → run = (.error f, w)
  /-- Without a module nothing is found, whether there is none or finding one fails. -/
  unloaded : ∀ path, d.isFile = true → d.path = .ok path →
    ((Installation.find path settings w).1 = .ok none ∨
      ∃ f, (Installation.find path settings w).1 = .error (.failure f)) →
    run = (.ok .missing, (Installation.find path settings w).2)
  broken : ∀ path f, d.isFile = true → d.path = .ok path →
    (Installation.find path settings w).1 = .error f → (∀ g, f ≠ .failure g) →
    run = (.error f, (Installation.find path settings w).2)
  /-- With one its engine is asked, and the answers decide. -/
  loaded : ∀ path found, d.isFile = true → d.path = .ok path →
    (Installation.find path settings w).1 = .ok (some found) →
    ∃ e v, Installation.engine? path settings w = (.ok (some e), v) ∧
      e.modulePath = found.modulePath ∧
      match namedConfig w path settings with
      | .error f => run = (.error f, v)
      | .ok file => ∃ inquiries, Asked e path inquiries v run.2 ∧
        Classified e w.limits path settings file inquiries run.1

/-- With a file the search goes on as looking for its engine ended. -/
theorem find_of_file {d : Snapshot} {path : String} (settings : Settings) (w : World)
    (hd : d.isFile = true) (hpath : d.path = .ok path) :
    find d settings w =
      match settled .module (Installation.engine? path settings w).1 with
      | .ok (.ok (some e)) => withEngine e path settings (Installation.engine? path settings w).2
      | .ok _ => (.ok .missing, (Installation.engine? path settings w).2)
      | .error f => (.error f, (Installation.engine? path settings w).2) := by
  unfold find
  simp only [hd, hpath, Bool.not_true, Bool.false_eq_true, if_false]
  rw [bind_ok (rfl : Act.ofExcept (.ok path) w = (.ok path, w)), bind_apply, recover_apply]
  cases settled .module (Installation.engine? path settings w).1 with
  | error f => rfl
  | ok outcome =>
    match outcome with
    | .ok (some e) => rfl
    | .ok none => rfl
    | .error f => rfl

/-- With an engine at hand it is asked. -/
theorem find_of_engine {d : Snapshot} {path : String} {settings : Settings} {w v : World} {e : Engine}
    (hd : d.isFile = true) (hpath : d.path = .ok path)
    (he : Installation.engine? path settings w = (.ok (some e), v)) :
    find d settings w = withEngine e path settings v := by
  rw [find_of_file settings w hd hpath, he]
  rfl

/-- Looking for an engine leaves the file as it is that the settings name. -/
theorem namedConfig_frame {M : Message → Prop} {L : Launch → Prop} {w v : World}
    (h : World.Frame M L w v) (path : String) (settings : Settings) :
    namedConfig v path settings = namedConfig w path settings := by
  simp only [namedConfig, h.home, h.folders]

/-- Every document has the local configuration that the answers of its engine make. -/
theorem find_resolved (d : Snapshot) (settings : Settings) (w : World) :
    Resolved d settings w (find d settings w) where
  virtual hd := by
    unfold find
    rw [hd]
    rfl
  lost f hd hpath := by
    unfold find
    rw [hd, hpath]
    rfl
  unloaded path hd hpath h := by
    rw [find_of_file settings w hd hpath]
    obtain h | ⟨f, h⟩ := h
    · rw [Installation.engine?_none (Prod.ext h rfl)]
      rfl
    · rw [Installation.engine?_error (Prod.ext h rfl),
        settled_ok_error.2 ⟨rfl, Installation.find_failed h⟩]
  broken path f hd hpath h hf := by
    rw [find_of_file settings w hd hpath, Installation.engine?_error (Prod.ext h rfl)]
    cases f
    case failure g => exact absurd rfl (hf g)
    all_goals rfl
  loaded path found hd hpath h := by
    obtain ⟨e, v, he, hmodule⟩ := Installation.engine?_some (Prod.ext h rfl)
    refine ⟨e, v, he, hmodule, ?_⟩
    have hframe := Installation.engine?_frame path settings w
    rw [he] at hframe
    change World.Frame _ _ w v at hframe
    rw [find_of_engine hd hpath he, ← namedConfig_frame hframe]
    cases hfile : namedConfig v path settings with
    | error f => exact withEngine_error hfile
    | ok file =>
      obtain ⟨inquiries, r, hasked, hinquired, hr⟩ := withEngine_inquired (e := e) v hfile
      exact ⟨inquiries, hasked, hr ▸ hframe.limits ▸ hinquired.classified path⟩

end LocalConfiguration

end FormatServer
