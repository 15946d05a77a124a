import FormatServer.Proofs.Pipeline.Reach
import FormatServer.Proofs.World.Moves

/-!
# What a request leaves alone

With the settings at hand a request finds a formatter, asks it and formats. All this leaves the
surroundings, the configuration, trust, the folders and the settings cache as they are, and only
adds to the journal (`World.Frame M L`: of messages those in `M`, of launches those in `L`). Which
these are depends on the settings and on the engine that is found; `complete_frame` says so of a
whole request, up to the edits that the client is told to apply.
-/

set_option autoImplicit false

namespace FormatServer

open Act World

/-! ## Adding to a list -/

/-- The second list is the first one with some more elements, all of them in `P`. -/
def Adds {α : Type} (P : α → Prop) (l l' : List α) : Prop :=
  ∃ added, l' = l ++ added ∧ ∀ a ∈ added, P a

namespace Adds

variable {α : Type} {P : α → Prop} {l l' l'' : List α}

theorem ofEq (h : l' = l) : Adds P l l' :=
  ⟨[], by rw [h, List.append_nil], fun _ ha => absurd ha List.not_mem_nil⟩

theorem nothing : Adds P l l := ofEq rfl

theorem one {a : α} (h : P a) : Adds P l (l ++ [a]) :=
  ⟨[a], rfl, fun _ hb => List.mem_singleton.1 hb ▸ h⟩

theorem trans (h : Adds P l l') (h' : Adds P l' l'') : Adds P l l'' := by
  obtain ⟨xs, rfl, hxs⟩ := h
  obtain ⟨ys, rfl, hys⟩ := h'
  refine ⟨xs ++ ys, List.append_assoc _ _ _, fun a ha => ?_⟩
  exact (List.mem_append.1 ha).elim (hxs a) (hys a)

theorem mono {Q : α → Prop} (h : Adds P l l') (hPQ : ∀ a, P a → Q a) : Adds Q l l' := by
  obtain ⟨xs, hl, hxs⟩ := h
  exact ⟨xs, hl, fun a ha => hPQ a (hxs a ha)⟩

theorem eq_self (h : Adds (fun _ => False) l l') : l' = l := by
  obtain ⟨xs, rfl, hxs⟩ := h
  rw [List.eq_nil_iff_forall_not_mem.2 hxs, List.append_nil]

theorem isPrefix (h : Adds P l l') : l <+: l' := by
  obtain ⟨xs, rfl, _⟩ := h
  exact List.prefix_append l xs

theorem of_append {added : List α} (h : Adds P l (l ++ added)) : ∀ a ∈ added, P a := by
  obtain ⟨xs, hl, hxs⟩ := h
  rw [List.append_cancel_left hl]
  exact hxs

/-- What does not count leaves a part of the list as it is. -/
theorem filter_eq {p : α → Bool} (h : Adds P l l') (hp : ∀ a, P a → p a = false) :
    l'.filter p = l.filter p := by
  obtain ⟨xs, rfl, hxs⟩ := h
  have hnil : xs.filter p = [] := by
    rw [List.filter_eq_nil_iff]
    intro a ha
    rw [hp a (hxs a ha)]
    exact Bool.false_ne_true
  rw [List.filter_append, hnil, List.append_nil]

end Adds

/-! ## The frame -/

/-- The message asks for the package manager of a folder. -/
def Message.asksManager : Message → Bool
  | .askPackageManager _ => true
  | _ => false

/-- What a world has been given: its surroundings, its configuration, its folders and trust. -/
def World.given (w : World) : World where
  files := w.files
  home := w.home
  client := w.client
  processes := { reply := w.processes.reply }
  limits := w.limits
  logger := w.logger
  config := w.config
  trusted := w.trusted
  folders := w.folders

/-- The second world differs from the first by what the server has found and done, not by what it
was given. Engines it has added run where it is configured to run them; it has sent messages in `M`
and started processes in `L`. -/
structure World.Frame (M : Message → Prop) (L : Launch → Prop) (w w' : World) : Prop where
  given : w'.given = w.given
  cache : w'.cache = w.cache
  engines : ∀ e ∈ w'.engines, e ∈ w.engines ∨ e.nodePath = w.config.nodePath
  sent : Adds M w.journal.sent w'.journal.sent
  launches : Adds L w.journal.launches w'.journal.launches

variable {M : Message → Prop} {L : Launch → Prop}

namespace World.Frame

section
variable {w w' : World} (h : World.Frame M L w w')
include h

theorem files : w'.files = w.files := congrArg (·.files) h.given

theorem home : w'.home = w.home := congrArg (·.home) h.given

theorem client : w'.client = w.client := congrArg (·.client) h.given

theorem limits : w'.limits = w.limits := congrArg (·.limits) h.given

theorem config : w'.config = w.config := congrArg (·.config) h.given

theorem trusted : w'.trusted = w.trusted := congrArg (·.trusted) h.given

theorem folders : w'.folders = w.folders := congrArg (·.folders) h.given

end

theorem moving : Moving (World.Frame M L) where
  refl _ := ⟨rfl, rfl, fun _ => .inl, .nothing, .nothing⟩
  trans h h' := ⟨h'.given.trans h.given, h'.cache.trans h.cache,
    fun e he => (h'.engines e he).elim (h.engines e) fun hpath => .inr (h.config ▸ hpath),
    h.sent.trans h'.sent, h.launches.trans h'.launches⟩

/-- A world that differs in nothing that the frame speaks of. -/
theorem still {w w' : World} (hgiven : w'.given = w.given) (hcache : w'.cache = w.cache)
    (hengines : ∀ e ∈ w'.engines, e ∈ w.engines ∨ e.nodePath = w.config.nodePath)
    (hsent : w'.journal.sent = w.journal.sent)
    (hlaunches : w'.journal.launches = w.journal.launches) : World.Frame M L w w' :=
  ⟨hgiven, hcache, hengines, .ofEq hsent, .ofEq hlaunches⟩

end World.Frame

theorem World.Frame.mono {M' : Message → Prop} {L' : Launch → Prop} {w w' : World}
    (h : World.Frame M L w w') (hM : ∀ m, M m → M' m) (hL : ∀ l, L l → L' l) :
    World.Frame M' L' w w' :=
  ⟨h.given, h.cache, h.engines, h.sent.mono hM, h.launches.mono hL⟩

theorem World.Frame.weaken {w w' : World}
    (h : World.Frame (fun _ => False) (fun _ => False) w w') : World.Frame M L w w' :=
  h.mono (fun _ => False.elim) (fun _ => False.elim)

/-! ## Single actions -/

theorem record_frame (r : LogRecord) : Moves (World.Frame M L) (record r) :=
  fun _ => .still rfl rfl (fun _ => .inl) rfl rfl

theorem logEntry_frame (entry : LogEntry) : Moves (World.Frame M L) (logEntry entry) := by
  have hR := World.Frame.moving (M := M) (L := L)
  unfold logEntry
  exact .bind hR (.get hR) fun _ => .bind hR (.ofExcept hR _) record_frame

theorem log_frame (level : Int) (message : String) : Moves (World.Frame M L) (log level message) :=
  record_frame _

theorem start_frame {command : Command} {stdin : Option Json}
    (hL : ∀ read, read = none ∨ read = stdin → L ⟨command, read⟩) :
    Moves (World.Frame M L) (start command stdin) := by
  intro w
  have hR := World.Frame.moving (M := M) (L := L)
  refine { hR.refl w with launches := .one ?_ }
  cases w.processes.reply w.processes.started command with
  | notStarted _ => exact hL _ (.inl rfl)
  | malformed _ => exact hL _ (.inl rfl)
  | finished _ _ _ => exact hL _ (.inr rfl)

/-- Whatever is logged and sent is within the frame. -/
theorem frame_logs : Installation.Logs (World.Frame M L) :=
  ⟨World.Frame.moving, fun level message _ => log_frame level message⟩

theorem send_frame {m : Message} (hM : M m) : Moves (World.Frame M L) (send m) := fun w => by
  have hR := World.Frame.moving (M := M) (L := L)
  exact { hR.refl w with sent := .one hM }

theorem askPackageManager_frame {folderUri : String} (hM : M (.askPackageManager folderUri)) :
    Moves (World.Frame M L) (askPackageManager folderUri) :=
  Installation.askPackageManager_moves frame_logs (send_frame hM)

/-! ## Finding the formatter -/

namespace Installation

/-- A search for a global installation may send and start what it needs. -/
structure MayAsk (M : Message → Prop) (L : Launch → Prop) : Prop where
  manager : ∀ folderUri, M (.askPackageManager folderUri)
  root : ∀ manager arguments below, rootCommand? manager = some (arguments, below) →
    L ⟨.manager manager arguments, none⟩

theorem MayAsk.asks (ha : MayAsk M L) : Asks (World.Frame M L) where
  manager folderUri := send_frame (ha.manager folderUri)
  root manager arguments below hknown := by
    refine knownRoot_moves frame_logs (start_frame fun read h => ?_) fun root? w => ?_
    · obtain rfl : read = none := h.elim id id
      exact ha.root _ _ _ hknown
    · exact .still rfl rfl (fun _ => .inl) rfl rfl

theorem explicitPath_frame (path : String) (setting : Json) :
    Moves (World.Frame M L) (explicitPath path setting) :=
  explicitPath_moves frame_logs path setting

theorem packageManagerFor_frame (ha : MayAsk M L) (path : String) (settings : Settings) :
    Moves (World.Frame M L) (packageManagerFor path settings) :=
  packageManagerFor_moves frame_logs ha.asks path settings

theorem globalRoot_frame (ha : MayAsk M L) (manager : Json) :
    Moves (World.Frame M L) (globalRoot manager) :=
  globalRoot_moves frame_logs ha.asks.root manager

theorem globalModule_frame {path : String} {settings : Settings}
    (ha : settings.resolveGlobalModules = true → MayAsk M L) :
    Moves (World.Frame M L) (globalModule path settings) :=
  globalModule_moves frame_logs fun h => (ha h).asks

theorem find_frame {path : String} {settings : Settings}
    (ha : settings.prettierPath = none → settings.resolveGlobalModules = true → MayAsk M L) :
    Moves (World.Frame M L) (find path settings) :=
  find_moves frame_logs fun h h' => (ha h h').asks

section
variable {R : World → World → Prop} (hR : Moving R)
  (hstill : ∀ {w w'}, World.Frame (fun _ => False) (fun _ => False) w w' → R w w')
  {path : String} {settings : Settings} {P : String → Prop} {w : World}
  (hfind : Runs R (find path settings) w fun found? _ => ∀ f, found? = some f → P f.modulePath)
include hR hstill hfind

/-- The engine that is returned runs the module that was found, and is one of the session. -/
theorem engine_runs : Runs R (engine? path settings) w fun e? v =>
    ∀ e, e? = some e → P e.modulePath ∧ e ∈ v.engines := by
  unfold engine?
  refine .bind hR hfind fun found? u _ hP => ?_
  cases found? with
  | none => exact .pure hR fun e h => by cases h
  | some found =>
    refine .bind hR (.get hR (Q := fun v t => v = t) rfl) fun v t _ hv => ?_
    subst hv
    dsimp only
    split
    · next e he =>
      refine .pure hR fun e' h => ?_
      cases h
      have hpath := List.find?_some he
      rw [decide_eq_true_eq] at hpath
      rw [hpath]
      exact ⟨hP found rfl, List.mem_of_find?_eq_some he⟩
    · refine .bind hR (P := fun _ t => t.config = v.config)
        ⟨hstill (log_frame _ _ _), fun _ _ => rfl⟩ fun _ t _ hconfig => ?_
      refine .bind hR (P := fun _ t => _ ∈ t.engines)
        ⟨hstill ?_, fun _ _ => List.mem_append_right _ (.head _)⟩ fun _ t _ hmem => ?_
      · refine .still rfl rfl (fun e he => ?_) rfl rfl
        refine (List.mem_append.1 he).imp_right fun hnew => ?_
        rw [List.mem_singleton.1 hnew, hconfig]
      · refine .pure hR fun e h => ?_
        cases h
        exact ⟨hP found rfl, hmem⟩

theorem reportedEngine_runs : Runs R (reportedEngine? path settings) w fun e? v =>
    ∀ e, e? = some e → P e.modulePath ∧ e ∈ v.engines := by
  unfold reportedEngine?
  refine .bind hR (.recover (engine_runs hR hstill hfind) .module) fun outcome u _ hP => ?_
  match outcome with
  | .error f =>
    refine .bind hR (P := fun _ _ => True) (.ofMoves (hstill (log_frame _ _ _))) fun _ t _ _ => ?_
    exact .pure hR fun e h => by cases h
  | .ok none =>
    refine .bind hR (P := fun _ _ => True) (.ofMoves (hstill (log_frame _ _ _))) fun _ t _ _ => ?_
    exact .pure hR fun e h => by cases h
  | .ok (some e) => exact .pure hR (hP _ rfl)

end

end Installation

/-! ## Asking the formatter -/

namespace Engine

/-- The engine may be started to call a method with a payload, which it reads or not. -/
def MayCall (L : Launch → Prop) (e : Engine) (method : String) (payload : Json) : Prop :=
  ∀ read, read = none ∨ read = some payload → L ⟨.node e.nodePath e.modulePath method, read⟩

variable {e : Engine}

theorem call_frame {method : String} {payload : Json} (he : e.MayCall L method payload) :
    Moves (World.Frame M L) (e.call method payload) := by
  have hR := World.Frame.moving (M := M) (L := L)
  unfold call
  refine .bind hR (log_frame _ _) fun _ => .bind hR (start_frame he) fun reply => ?_
  cases reply with
  | notStarted reason => exact .fail hR _
  | malformed reason => exact .throw hR _
  | finished stdout stderr exitCode => exact .bind hR (.get hR) fun _ => .ofExcept hR _

theorem format_frame {text : String} {options : Fields}
    (he : e.MayCall L "format" (.obj [("text", .str text), ("options", .obj options)])) :
    Moves (World.Frame M L) (e.format text options) :=
  format_moves World.Frame.moving (call_frame he)

theorem fileInfo_frame {path : String} {options : Fields}
    (he : e.MayCall L "getFileInfo" (.obj [("path", .str path), ("options", .obj options)])) :
    Moves (World.Frame M L) (e.fileInfo path options) :=
  fileInfo_moves World.Frame.moving (call_frame he)

theorem languageTable_frame (he : e.MayCall L "getSupportInfo" (.obj [])) :
    Moves (World.Frame M L) e.languageTable := by
  have hR := World.Frame.moving (M := M) (L := L)
  unfold languageTable
  refine .bind hR (.get hR) fun w => ?_
  split
  · exact .pure hR _
  · refine .bind hR (call_frame he) fun _ => .bind hR (.ofExcept hR _) fun table =>
      .bind hR (fun w => ?_) fun _ => .pure hR _
    exact .still rfl rfl (fun _ => .inl) rfl rfl

end Engine

namespace LocalConfiguration

/-- An engine may be asked for the configuration of a path, which a file names. -/
structure MayAsk (L : Launch → Prop) (e : Engine) (path : String) (settings : Settings)
    (file : Option String) : Prop where
  configFile : e.MayCall L "resolveConfigFile" (.obj [("path", .str path)])
  resolveConfig : e.MayCall L "resolveConfig"
    (.obj [("path", .str path), ("options", .obj (lookupOptions settings file))])

theorem withEngine_frame {e : Engine} {path : String} {settings : Settings}
    (ha : ∀ file, (settings.configPath = none → file = none) → MayAsk L e path settings file) :
    Moves (World.Frame M L) (withEngine e path settings) :=
  withEngine_moves frame_logs (log_frame _) fun file hfile => ask_moves frame_logs
    (Engine.call_frame (ha file hfile).configFile) (Engine.call_frame (ha file hfile).resolveConfig)

theorem find_frame {d : Snapshot} {settings : Settings} {E : Engine → Prop} {w : World}
    (hengine : ∀ path, Runs (World.Frame M L) (Installation.engine? path settings) w
      fun e? _ => ∀ e, e? = some e → E e)
    (ha : ∀ e path file, E e → (settings.configPath = none → file = none) →
      MayAsk L e path settings file) :
    World.Frame M L w (find d settings w).2 :=
  find_moves World.Frame.moving hengine fun e path he => withEngine_frame (ha e path · he)

end LocalConfiguration

theorem IgnoreFile.find_frame (path : String) (setting : Json) :
    Moves (World.Frame M L) (IgnoreFile.find path setting) :=
  IgnoreFile.find_moves World.Frame.moving path setting

/-! ## Whole requests -/

/-- The engine may be asked what formatting asks of it under some settings, with an ignore file in
`F`. -/
structure Engine.MayFormat (L : Launch → Prop) (F : String → Prop) (settings : Settings) (e : Engine) :
    Prop where
  localConfig : ∀ path file, (settings.configPath = none → file = none) →
    LocalConfiguration.MayAsk L e path settings file
  fileInfo : ∀ path file?, (∀ f, file? = some f → F f) → e.MayCall L "getFileInfo"
    (.obj [("path", .str path), ("options", .obj (Pipeline.fileInfoOptions settings file?))])
  languages : e.MayCall L "getSupportInfo" (.obj [])
  format : ∀ text options,
    e.MayCall L "format" (.obj [("text", .str text), ("options", .obj options)])

/-- Where `I` holds a search finds modules in `P` and ignore files in `F`, and an engine of the
session that runs such a module may format. -/
structure World.Formats (M : Message → Prop) (L : Launch → Prop) (I : World → Prop)
    (P F : String → Prop) (settings : Settings) : Prop where
  keeps : ∀ {w w'}, World.Frame M L w w' → I w → I w'
  find : ∀ path w, I w → Runs (World.Frame M L) (Installation.find path settings) w
    fun found? _ => ∀ f, found? = some f → P f.modulePath
  ignoreFile : ∀ path w, I w → Runs (World.Frame M L) (IgnoreFile.find path settings.ignorePath) w
    fun file? _ => ∀ f, file? = some f → F f
  engine : ∀ w, ∀ e ∈ w.engines, I w → P e.modulePath → e.MayFormat L F settings

/-- Under any settings nothing but questions for a package manager is sent. -/
theorem World.formats (hM : ∀ folderUri, M (.askPackageManager folderUri)) (settings : Settings) :
    World.Formats M (fun _ => True) (fun _ => True) (fun _ => True) (fun _ => True) settings where
  keeps _ _ := trivial
  find _ w _ := ⟨Installation.find_frame (fun _ _ => ⟨hM, fun _ _ _ _ => trivial⟩) w,
    fun _ _ _ _ => trivial⟩
  ignoreFile path w _ := ⟨IgnoreFile.find_frame path _ w, fun _ _ _ _ => trivial⟩
  engine _ _ _ _ _ := ⟨fun _ _ _ => ⟨fun _ _ => trivial, fun _ _ => trivial⟩, fun _ _ _ _ _ => trivial,
    fun _ _ => trivial, fun _ _ _ _ => trivial⟩

section
variable {I : World → Prop} {P F : String → Prop}

theorem World.Formats.steady {settings : Settings} (h : World.Formats M L I P F settings) :
    World.collaborators.Steady I (World.Frame M L) (Engine.MayFormat L F settings) F settings where
  keeps := h.keeps
  localConfig _ w hw := LocalConfiguration.find_frame
    (fun path => (Installation.engine_runs World.Frame.moving .weaken (h.find path w hw)).mono
      fun _ v hv he e heq => h.engine v e (he e heq).2 (h.keeps hv hw) (he e heq).1)
    fun _ path file he hfile => he.localConfig path file hfile
  engine path w hw :=
    (Installation.reportedEngine_runs World.Frame.moving .weaken (h.find path w hw)).mono
      fun _ v hv he e heq => h.engine v e (he e heq).2 (h.keeps hv hw) (he e heq).1
  ignoreFile := h.ignoreFile
  fileInfo _ path file? w _ he hF := Engine.fileInfo_frame (he.fileInfo path file? hF) w
  languages _ w _ he := Engine.languageTable_frame he.languages w

theorem Pipeline.formatted_frame {e : Engine} {text : String} {options : Fields}
    (he : e.MayCall L "format" (.obj [("text", .str text), ("options", .obj options)])) :
    Moves (World.Frame M L) (Pipeline.formatted World.collaborators e text options) :=
  Pipeline.formatted_moves World.Frame.moving logEntry_frame (Engine.format_frame he)

theorem Pipeline.complete_frame {text : String} {d : Snapshot} {path : String}
    {request : FormatRequest} {outcome : Resolution}
    (h : ∀ settings, outcome = .ok settings → World.Formats M L I P F settings) {w : World}
    (hw : I w) :
    World.Frame M L w (Pipeline.complete World.collaborators text d path request outcome w).2 := by
  have hR := World.Frame.moving (M := M) (L := L)
  cases outcome with
  | error e => exact complete_error_moves hR logEntry_frame d e w
  | ok settings =>
    have hreached : Reached World.collaborators (World.Frame M L) (Engine.MayFormat L F settings) text
        path request w (complete World.collaborators text d path request (.ok settings) w) :=
      complete_reached hR logEntry_frame d (fun _ hs => by cases hs; exact (h settings rfl).steady) hw
    cases hreached with
    | stopped ht _ => exact ht
    | formats t e parser settings' config ht he hp =>
      rw [hp]
      exact hR.trans ht (Moves.bind hR (formatted_frame (he.format text _)) (fun _ => .pure hR _) t)

end

theorem Request.announce_frame (r : Request) : Moves (World.Frame M L) r.announce :=
  r.announce_moves frame_logs

end FormatServer
