import FormatServer.Proofs.Pipeline.Alike
import FormatServer.Proofs.World.Safe
import Mathlib.Data.List.Forall2

/-!
# Untrusted worlds that differ in settings only

Two worlds are alike if they differ in nothing but the settings that the client answers and that have
been fetched, and in these only where safe settings make no use of them (`World.Alike`). Then all
that a server does around a request it does alike: `World.collaborators_alike`, and
`fetchSettings_alike` for the fetch.
-/

set_option autoImplicit false

namespace FormatServer

open Act

/-! ## What may differ -/

/-- Two reactions to a settings fetch agree. -/
inductive SettingsAnswer.Agree : SettingsAnswer → SettingsAnswer → Prop
  | pending : Agree .pending .pending
  | answered {a a' : Except String Json} : SettingsCache.AgreeAsAnswers a a' →
      Agree (.answered a) (.answered a')

/-- Two clients differ in the settings they answer only. -/
structure Client.Agree (c c' : Client) : Prop where
  settings : ∀ n uri, (c.settings n uri).Agree (c'.settings n uri)
  packageManager : c.packageManager = c'.packageManager

/-- Two fetches differ in their settings only, which are alike. -/
structure Fetch.Alike (f f' : Fetch) : Prop where
  key : f.key = f'.key
  uri : f.uri = f'.uri
  outcome : Option.Rel (SameEnd Settings.Alike) f.outcome f'.outcome

structure SettingsCache.Alike (c c' : SettingsCache) : Prop where
  fetches : List.Forall₂ Fetch.Alike c.fetches c'.fetches
  entries : c.entries = c'.entries

/-- Two untrusted worlds differ in settings only. -/
structure World.Alike (w w' : World) : Prop where
  files : w.files = w'.files
  home : w.home = w'.home
  client : w.client.Agree w'.client
  processes : w.processes = w'.processes
  limits : w.limits = w'.limits
  logger : w.logger = w'.logger
  config : w.config = w'.config
  left : w.trusted = false
  right : w'.trusted = false
  folders : w.folders = w'.folders
  cache : w.cache.Alike w'.cache
  engines : w.engines = w'.engines
  languages : w.languages = w'.languages
  globalRoots : w.globalRoots = w'.globalRoots
  journal : w.journal = w'.journal

theorem Settings.Alike.sameUse {s t : Settings} (h : s.Alike t) : s.SameUse t :=
  ⟨h.left.ignorePath.trans h.right.ignorePath.symm,
    h.left.withNodeModules.trans h.right.withNodeModules.symm, h.formattingOptions⟩

/-! ## Single actions -/

namespace World

theorem record_alike (r : LogRecord) : Act.Alike World.Alike Eq (record r) (record r) := by
  intro w w' h
  refine ⟨{ h with journal := ?_ }, .ok rfl⟩
  show ({ w.journal with records := w.journal.records ++ [r] } : Journal) = _
  rw [h.journal]
  rfl

theorem logEntry_alike (entry : LogEntry) :
    Act.Alike World.Alike Eq (logEntry entry) (logEntry entry) := by
  unfold logEntry
  refine .bind .get fun w w' h => ?_
  rw [h.logger, h.limits]
  exact .bind (.ofExcept (.refl (fun _ => rfl) _)) fun r _ e => e ▸ record_alike r

theorem log_alike (level : Int) (message : String) :
    Act.Alike World.Alike Eq (log level message) (log level message) :=
  record_alike _

theorem start_alike (command : Command) (stdin : Option Json) :
    Act.Alike World.Alike Eq (start command stdin) (start command stdin) := by
  intro w w' h
  refine ⟨{ h with processes := ?_, journal := ?_ }, ?_⟩
  · show ({ w.processes with started := w.processes.started ++ [command] } : Processes) = _
    rw [h.processes]
    rfl
  · show ({ w.journal with launches := w.journal.launches ++ [_] } : Journal) = _
    rw [h.journal, h.processes]
    rfl
  · show SameEnd Eq (.ok (w.processes.reply w.processes.started command)) _
    rw [h.processes]
    exact .ok rfl

end World

open World

/-! ## Finding the formatter -/

namespace Installation

theorem load_alike (modulePath : String) :
    Act.Alike World.Alike Eq (load modulePath) (load modulePath) := by
  unfold load
  refine .bind .get fun w w' h => ?_
  rw [h.files, h.limits]
  exact .bind (.ofExcept (.refl (fun _ => rfl) _)) fun _ _ e => e ▸ .pure rfl

theorem bundledModule_alike : Act.Alike World.Alike Eq bundledModule bundledModule := by
  unfold bundledModule
  refine .bind .get fun w w' h => ?_
  rw [h.config]
  dsimp only
  split
  · split
    · exact .pure rfl
    · exact .bind (load_alike _) fun _ _ e => e ▸ .pure rfl
  · split
    · exact .throw _
    · exact .pure rfl

variable {s t : Settings} (hst : s.Alike t)
include hst

theorem find_alike (path : String) : Act.Alike World.Alike Eq (find path s) (find path t) := by
  intro w w' h
  rw [find_safe hst.left h.left, find_safe hst.right h.right]
  exact bundledModule_alike w w' h

theorem engine_alike (path : String) : Act.Alike World.Alike Eq (engine? path s) (engine? path t) := by
  unfold engine?
  refine .bind (find_alike hst path) fun found? _ e => ?_
  subst e
  cases found? with
  | none => exact .pure rfl
  | some found =>
    refine .bind .get fun w w' h => ?_
    rw [h.engines, h.config]
    dsimp only
    split
    · exact .pure rfl
    · refine .bind (log_alike _ _) fun _ _ _ => ?_
      refine .bind (.modify fun u u' hu => ?_) fun _ _ _ => .pure rfl
      exact { hu with engines := by rw [hu.engines] }

theorem reportedEngine_alike (path : String) :
    Act.Alike World.Alike Eq (reportedEngine? path s) (reportedEngine? path t) := by
  unfold reportedEngine?
  refine .bind (.recover (engine_alike hst path) .module) fun outcome _ e => ?_
  obtain rfl := e.eq
  match outcome with
  | .error f => exact .bind (log_alike _ _) fun _ _ _ => .pure rfl
  | .ok none => exact .bind (log_alike _ _) fun _ _ _ => .pure rfl
  | .ok (some e) => exact .pure rfl

end Installation

/-! ## Asking the formatter -/

namespace Engine

variable (e : Engine)

theorem call_alike (method : String) (payload : Json) :
    Act.Alike World.Alike Eq (e.call method payload) (e.call method payload) := by
  unfold call
  refine .bind (log_alike _ _) fun _ _ _ => .bind (start_alike _ _) fun reply _ h => ?_
  subst h
  cases reply with
  | notStarted reason => exact .fail _
  | malformed reason => exact .throw _
  | finished stdout stderr exitCode =>
    refine .bind .get fun w w' h => ?_
    rw [h.limits]
    exact .ofExcept (.refl (fun _ => rfl) _)

theorem format_alike (text : String) (options : Fields) :
    Act.Alike World.Alike Eq (e.format text options) (e.format text options) := by
  unfold format
  refine .bind (call_alike e _ _) fun result _ h => ?_
  subst h
  split
  · exact .pure rfl
  · exact .fail _

theorem fileInfo_alike (path : String) (options : Fields) :
    Act.Alike World.Alike Eq (e.fileInfo path options) (e.fileInfo path options) := by
  unfold fileInfo
  exact .bind (call_alike e _ _) fun _ _ h => h ▸ .ofExcept (.refl (fun _ => rfl) _)

theorem languageTable_alike : Act.Alike World.Alike Eq e.languageTable e.languageTable := by
  unfold languageTable
  refine .bind .get fun w w' h => ?_
  rw [h.languages]
  split
  · exact .pure rfl
  · refine .bind (call_alike e _ _) fun answer _ ha => ?_
    subst ha
    refine .bind (.ofExcept (.refl (fun _ => rfl) _)) fun table _ ht => ?_
    subst ht
    refine .bind (.modify fun u u' hu => ?_) fun _ _ _ => .pure rfl
    exact { hu with languages := by rw [hu.languages] }

theorem resolveConfig_alike (path : String) (options : Fields) :
    Act.Alike World.Alike Eq (e.resolveConfig path options) (e.resolveConfig path options) := by
  unfold resolveConfig
  refine .bind (call_alike e _ _) fun result _ h => ?_
  subst h
  split <;> exact .pure rfl

theorem configFile_alike (path : String) :
    Act.Alike World.Alike Eq (e.configFile path) (e.configFile path) := by
  unfold configFile
  exact .bind (call_alike e _ _) fun _ _ h => h ▸ .pure rfl

end Engine

namespace LocalConfiguration

variable {s t : Settings} (hst : s.Alike t)
include hst

theorem ask_alike (e : Engine) (path : String) :
    Act.Alike World.Alike Eq (ask e path s none) (ask e path t none) := by
  have hoptions : lookupOptions s none = lookupOptions t none := by
    rw [lookupOptions, lookupOptions, hst.left.useEditorConfig, hst.right.useEditorConfig]
  unfold ask hasFile
  rw [hst.requireConfig, hoptions]
  refine .bind (P := Eq) ?_ fun governed _ h => ?_
  · exact .bind (e.configFile_alike path) fun _ _ h => h ▸ .pure rfl
  subst h
  split
  · exact .bind (log_alike _ _) fun _ _ _ => .pure rfl
  · refine .bind (e.resolveConfig_alike path _) fun options? _ h => ?_
    subst h
    cases options? <;> exact .pure rfl

theorem withEngine_alike (e : Engine) (path : String) :
    Act.Alike World.Alike Eq (withEngine e path s) (withEngine e path t) := by
  unfold withEngine namedFile
  rw [hst.left.configPath, hst.right.configPath]
  refine .bind (P := fun f f' => f = none ∧ f' = none) (.pure ⟨rfl, rfl⟩) fun f f' h => ?_
  obtain ⟨rfl, rfl⟩ := h
  refine .bind (.recover (ask_alike hst e path) .engine) fun config _ h => ?_
  obtain rfl := h.eq
  cases config with
  | ok config => exact .pure rfl
  | error f => exact .bind (log_alike _ _) fun _ _ _ => .pure rfl

theorem find_alike (d : Snapshot) : Act.Alike World.Alike Eq (find d s) (find d t) := by
  unfold find
  split
  · exact .pure rfl
  · refine .bind (.ofExcept (.refl (fun _ => rfl) _)) fun path _ h => ?_
    subst h
    refine .bind (.recover (Installation.engine_alike hst path) .module) fun outcome _ h => ?_
    obtain rfl := h.eq
    match outcome with
    | .ok (some e) => exact withEngine_alike hst e path
    | .ok none => exact .pure rfl
    | .error _ => exact .pure rfl

end LocalConfiguration

theorem IgnoreFile.locate_alike {w w' : World} (h : w.Alike w') (path name : String) :
    locate w path name = locate w' path name := by
  unfold locate nearest
  rw [h.home, h.folders, h.files]

theorem IgnoreFile.find_alike (path : String) (setting : Json) :
    Act.Alike World.Alike Eq (IgnoreFile.find path setting) (IgnoreFile.find path setting) := by
  unfold IgnoreFile.find
  split
  · exact .pure rfl
  · split
    · refine .bind .get fun w w' h => ?_
      rw [locate_alike h]
      exact .ofExcept (.refl (fun _ => rfl) _)
    · exact .throw _

theorem World.collaborators_alike :
    World.collaborators.Alike World.Alike Settings.Alike World.collaborators where
  use := Settings.Alike.sameUse
  log := logEntry_alike
  localConfig d _ _ h := LocalConfiguration.find_alike h d
  engine path _ _ h := Installation.reportedEngine_alike h path
  ignoreFile := IgnoreFile.find_alike
  fileInfo := Engine.fileInfo_alike
  languages := Engine.languageTable_alike
  format := Engine.format_alike

/-! ## The settings cache -/

section
variable {α β : Type} {R : α → β → Prop} {xs : List α} {ys : List β}

theorem getElem?_rel (h : List.Forall₂ R xs ys) (i : Nat) : Option.Rel R xs[i]? ys[i]? := by
  induction h generalizing i with
  | nil => exact .none
  | cons hab _ ih =>
    cases i with
    | zero => exact .some hab
    | succ i => exact ih i

theorem set_rel (h : List.Forall₂ R xs ys) {a : α} {b : β} (hab : R a b) (i : Nat) :
    List.Forall₂ R (xs.set i a) (ys.set i b) := by
  induction h generalizing i with
  | nil => exact .nil
  | cons hcd h ih =>
    cases i with
    | zero => exact .cons hab h
    | succ i => exact .cons hcd (ih i)

end

namespace SettingsCache.Alike

variable {c c' : SettingsCache} (h : c.Alike c')
include h

theorem fetch? (n : Nat) : Option.Rel Fetch.Alike (c.fetch? n) (c'.fetch? n) := by
  unfold SettingsCache.fetch?
  split
  · exact .none
  · exact getElem?_rel h.fetches _

theorem outcome? (n : Nat) : Option.Rel (SameEnd Settings.Alike) (c.outcome? n) (c'.outcome? n) := by
  unfold SettingsCache.outcome?
  have hf := h.fetch? n
  revert hf
  generalize c.fetch? n = f?
  generalize c'.fetch? n = f?'
  intro hf
  cases hf with
  | none => exact .none
  | some hf => exact hf.outcome

theorem send (key uri : String) : (c.send key uri).Alike (c'.send key uri) := by
  refine ⟨?_, ?_⟩
  · exact List.rel_append h.fetches (.cons ⟨rfl, rfl, .none⟩ .nil)
  · show (key, c.fetches.length + 1) :: c.entries.filter _ = _
    rw [h.entries, h.fetches.length_eq]
    rfl

theorem receive {a a' : Except String Json} (ha : AgreeAsAnswers a a') (n : Nat) :
    (c.receive n false a).Alike (c'.receive n false a') := by
  unfold SettingsCache.receive
  have hf := h.fetch? n
  revert hf
  generalize c.fetch? n = f?
  generalize c'.fetch? n = f?'
  intro hf
  cases hf with
  | none => exact h
  | @some f f' hf =>
    obtain ⟨key, uri, o⟩ := f
    obtain ⟨key', uri', o'⟩ := f'
    obtain ⟨rfl, rfl, ho⟩ := hf
    cases ho with
    | some _ => exact h
    | none =>
      have hr := resolve_alike ha uri
      dsimp only
      generalize resolve uri false a = r at hr ⊢
      generalize resolve uri false a' = r' at hr ⊢
      have hended : Fetch.Alike ⟨key, uri, some r⟩ ⟨key, uri, some r'⟩ := ⟨rfl, rfl, .some hr⟩
      exact ⟨set_rel h.fetches hended _, h.entries⟩

theorem evict (n : Nat) : (c.evict n).Alike (c'.evict n) := by
  unfold SettingsCache.evict
  have ho := h.outcome? n
  revert ho
  generalize c.outcome? n = o?
  generalize c'.outcome? n = o?'
  intro ho
  cases ho with
  | none => exact h
  | some ho =>
    cases ho with
    | ok _ => exact h
    | error _ => exact ⟨h.fetches, congrArg (forget · n) h.entries⟩

theorem clear : c.clear.Alike c'.clear := ⟨h.fetches, rfl⟩

end SettingsCache.Alike

namespace World

/-- The cache of alike worlds may change to alike ones. -/
theorem Alike.withCache {w w' : World} (h : w.Alike w') {c c' : SettingsCache} (hc : c.Alike c') :
    ({ w with cache := c } : World).Alike { w' with cache := c' } :=
  { h with cache := hc }

theorem send_alike (m : Message) : Act.Alike World.Alike (fun _ _ => True) (send m) (send m) :=
  .modify fun w w' h => { h with journal := by rw [h.journal] }

theorem fetchSettings_alike (uri : String) :
    Act.Alike World.Alike Eq (fetchSettings uri) (fetchSettings uri) := by
  unfold fetchSettings
  refine .bind (.ofExcept (.refl (fun _ => rfl) _)) fun key _ e => ?_
  subst e
  refine .bind .get fun w w' h => ?_
  rw [SettingsCache.current?, SettingsCache.current?, h.cache.entries, h.config,
    h.cache.fetches.length_eq]
  split
  · exact .pure rfl
  · split
    · exact .fail _
    · refine .bind (send_alike _) fun _ _ _ => ?_
      refine .bind (.modify fun u u' hu => hu.withCache (hu.cache.send key uri)) fun _ _ _ => ?_
      have hreact := h.client.settings (w'.cache.fetches.length + 1) uri
      generalize w.client.settings (w'.cache.fetches.length + 1) uri = r at hreact ⊢
      generalize w'.client.settings (w'.cache.fetches.length + 1) uri = r' at hreact ⊢
      cases hreact with
      | pending => exact .pure rfl
      | answered ha =>
        refine .bind (.modify fun u u' hu => hu.withCache ?_) fun _ _ _ => .pure rfl
        rw [hu.left, hu.right]
        exact (hu.cache.receive ha _).evict _

end World

end FormatServer
