import FormatServer.Proofs.Pipeline.Contained
import FormatServer.Proofs.World.Orderly

/-!
# Errors that a request contains

In an orderly world each action has the faults of its own stage, and those that slip: loading a module
ends in failures of the module stage (`find_contained`), calling the engine in failures of the engine
stage (`call_contained`). Whoever reports them returns, so the collaborators are those that the
pipeline expects (`collaborators_contained`), and what is left to do of a request for edits returns
them (`Continuation.resume_returns`), or ends in a fault that slips or for data that cannot be
rendered (`World.Escapes`).
-/

set_option autoImplicit false

namespace FormatServer

open Act World

variable {g : World}

/-! ## Single actions -/

/-- An action within the frame leaves an orderly world orderly. -/
theorem World.Frame.contained {α : Type} {Q : α → Prop} {E : Fault → Prop} {x : Act World α}
    (hx : Moves (World.Frame (fun _ => True) (fun _ => True)) x)
    (hend : ∀ w, g.Within w → EndsIn Q E (x w).1) : Contained g.Within Q E x :=
  fun w hw => ⟨⟨(hx w).orderly hw.orderly, (hx w).given.trans hw.given⟩, hend w hw⟩

theorem World.Within.limits {w : World} (hw : g.Within w) : w.limits = g.limits :=
  congrArg (·.limits) hw.given

theorem World.Within.ofGiven {w w' : World} (hw : g.Within w) (h : w'.given = w.given)
    (hcache : w'.cache.Every SettingsCache.OrderlyOutcome) : g.Within w' :=
  ⟨hw.orderly.ofGiven h hcache, h.trans hw.given⟩

theorem log_returns {S : Fault → Prop} (level : Int) (message : String) :
    Returns g.Within S (log level message) :=
  World.Frame.contained (log_frame level message) fun _ _ => .ok trivial

/-- The fault is that an entry cannot be rendered for the logger. -/
def World.Unrenderable (w : World) (entry : LogEntry) (e : Fault) : Prop :=
  entry.record w.logger w.limits = .error e

theorem logEntry_returns (entry : LogEntry) :
    Returns g.Within (g.Unrenderable entry) (logEntry entry) := by
  refine World.Frame.contained (logEntry_frame entry) fun w hw => ?_
  have hlogger : w.logger = g.logger := congrArg (·.logger) hw.given
  unfold logEntry
  rw [bind_ok (rfl : (get : Act World World) w = (.ok w, w)), hlogger, hw.limits]
  cases h : entry.record g.logger g.limits with
  | ok r => exact .ok trivial
  | error e => exact .error h

/-- A command is replied to by the processes of the world, in an orderly way. -/
theorem start_contained {E : Fault → Prop} (command : Command) (stdin : Option Json) :
    Contained g.Within (fun reply => Reply.Orderly g.limits command reply ∧ g.Replies command reply) E
      (start command stdin) :=
  World.Frame.contained (start_frame fun _ _ => trivial) fun w hw => by
    have hreply : w.processes.reply = g.processes.reply :=
      congrArg (·.processes.reply) hw.given
    exact .ok ⟨hw.limits ▸ hw.orderly.replies w.processes.started command,
      w.processes.started, by rw [hreply]⟩

theorem askPackageManager_returns (folderUri : String) :
    Returns g.Within g.Slips (askPackageManager folderUri) := by
  refine World.Frame.contained (askPackageManager_frame trivial) fun w _ => ?_
  unfold askPackageManager
  rw [bind_ok (rfl : (get : Act World World) w = (.ok w, w))]
  cases w.client.packageManager w.journal.sent folderUri with
  | error reason => exact .ok trivial
  | ok v => cases v <;> exact .ok trivial

/-! ## Finding the formatter -/

namespace Installation

theorem load_contained (modulePath : String) :
    Contained g.Within (fun _ => True) (FailsOr .module g.Slips) (load modulePath) := by
  unfold load
  refine .bind .get fun w hw => ?_
  have hread : EndsIn (fun _ => True) (FailsOr .module g.Slips)
      (readVersion w.limits w.files modulePath) := by
    rw [hw.limits, show w.files = g.files from congrArg (·.files) hw.given]
    exact readVersion_slips g modulePath
  exact .bind (.ofExcept hread) fun _ _ => .pure trivial

theorem tryLoad_returns (modulePath skipping : String) :
    Returns g.Within g.Slips (tryLoad modulePath skipping) := by
  unfold tryLoad
  refine .bind (load_contained modulePath).recover fun outcome _ => ?_
  cases outcome with
  | ok found => exact .pure trivial
  | error f => exact .bind (log_returns _ _) fun _ _ => .pure trivial

theorem explicitPath_contained (path setting : String) :
    Contained g.Within (fun _ => True) (FailsOr .module g.Slips)
      (explicitPath path (.str setting)) := by
  unfold explicitPath
  refine .bind .get fun w hw => ?_
  obtain ⟨resolved?, hresolved⟩ := Workspace.resolve_orderly hw.orderly.folders w.home path setting
  rw [hresolved]
  refine .ofOk ?_
  cases resolved? with
  | some resolved => exact .pure trivial
  | none =>
    dsimp only
    split
    · exact .pure trivial
    · exact .fail rfl

theorem localModule_returns (path : String) : Returns g.Within g.Slips (localModule path) := by
  unfold localModule
  refine .bind .get fun w hw => ?_
  split
  · rw [show w.files = g.files from congrArg (·.files) hw.given]
    refine .bind (.ofExcept (Workspace.findUp_slips g _ _ _)) fun p? _ => ?_
    cases p? with
    | some p => exact tryLoad_returns _ _
    | none => exact .pure trivial
  · exact .pure trivial

section
variable {settings : Settings} (hs : settings.Textual)
include hs

theorem packageManagerFor_contained (path : String) :
    Contained g.Within (fun manager => ∃ s, manager = .str s) g.Slips
      (packageManagerFor path settings) := by
  unfold packageManagerFor
  split
  · next manager hmanager => exact .pure (hs.packageManager manager hmanager)
  · refine .bind .get fun w hw => ?_
    obtain ⟨found?, hfound⟩ := Folder.containing_orderly hw.orderly.folders path
    rw [hfound]
    refine .ofOk ?_
    cases found? with
    | none => exact .pure ⟨_, rfl⟩
    | some found =>
      exact .bind (askPackageManager_returns _) fun _ _ => .pure ⟨_, rfl⟩

omit hs in
theorem askRoot_returns (manager : String) (arguments : List String) (below : Option String) :
    Returns g.Within g.Slips (askRoot manager arguments below) := by
  unfold askRoot
  refine .bind (start_contained _ _) fun reply hreply => ?_
  obtain ⟨hreply, hreplies⟩ := hreply
  cases reply with
  | notStarted reason => exact .bind (log_returns _ _) fun _ _ => .pure trivial
  | malformed reason => exact .throw (.malformed hreplies)
  | finished stdout stderr exitCode =>
    have report : ∀ root? : Option String, Returns g.Within g.Slips (do
        if root?.isNone then
          log Level.warning (manager ++ " " ++ " ".intercalate arguments ++ " failed: " ++
            String.ofList (Text.trim (Text.decodeLossy stderr)))
        return root?) := fun root? => by
      split
      · exact .bind (log_returns _ _) fun _ _ => .pure trivial
      · exact .pure trivial
    dsimp only
    split
    · next hexit =>
      rw [hexit] at hreply
      obtain ⟨root?, hroot⟩ := printedRoot_orderly hreply below
      rw [hroot]
      exact .ofOk (report root?)
    · exact .bind (P := fun _ => True) (.pure trivial) fun root? _ => report root?

omit hs in
theorem knownRoot_returns (manager : String) (arguments : List String) (below : Option String) :
    Returns g.Within g.Slips (knownRoot manager arguments below) := by
  unfold knownRoot
  refine .bind .get fun w _ => ?_
  split
  · exact .pure trivial
  · refine .bind (askRoot_returns _ _ _) fun root? _ =>
      .bind (.modify fun w hw => ?_) fun _ _ => .pure trivial
    exact hw.ofGiven rfl hw.orderly.cache

omit hs in
theorem globalRoot_returns (manager : String) :
    Returns g.Within g.Slips (globalRoot (.str manager)) := by
  unfold globalRoot
  dsimp only
  split
  · exact knownRoot_returns _ _ _
  · exact .bind (log_returns _ _) fun _ _ => .pure trivial

theorem globalModule_returns (path : String) :
    Returns g.Within g.Slips (globalModule path settings) := by
  unfold globalModule
  split
  · refine .bind (packageManagerFor_contained hs path) fun manager hmanager => ?_
    obtain ⟨name, rfl⟩ := hmanager
    refine .bind (globalRoot_returns name) fun root? _ => ?_
    cases root? with
    | some root => exact tryLoad_returns _ _
    | none => exact .pure trivial
  · exact .pure trivial

omit hs in
theorem bundledModule_contained :
    Contained g.Within (fun _ => True) (FailsOr .module g.Slips) bundledModule := by
  unfold bundledModule
  refine .bind .get fun w hw => ?_
  dsimp only
  split
  · split
    · exact .pure trivial
    · exact .bind (load_contained _) fun _ _ => .pure trivial
  · next v hv =>
    split
    · next ht =>
      obtain ⟨s, hs⟩ := hw.orderly.bundled ht
      exact absurd hs (hv s)
    · exact .pure trivial

theorem find_contained (path : String) :
    Contained g.Within (fun _ => True) (FailsOr .module g.Slips) (find path settings) := by
  unfold find
  split
  · next setting hsetting =>
    obtain ⟨s, rfl⟩ := hs.prettierPath setting hsetting
    exact .bind (explicitPath_contained path s) fun _ _ =>
      .bind (load_contained _) fun _ _ => .pure trivial
  · refine .bind (localModule_returns path).weaken fun found? _ => ?_
    cases found? with
    | some found => exact .pure trivial
    | none =>
      refine .bind (globalModule_returns hs path).weaken fun found? _ => ?_
      cases found? with
      | some found => exact .pure trivial
      | none => exact bundledModule_contained

theorem engine_contained (path : String) :
    Contained g.Within (fun _ => True) (FailsOr .module g.Slips) (engine? path settings) := by
  unfold engine?
  refine .bind (find_contained hs path) fun found? _ => ?_
  cases found? with
  | none => exact .pure trivial
  | some found =>
    refine .bind .get fun w _ => ?_
    dsimp only
    split
    · exact .pure trivial
    · refine .bind (log_returns _ _) fun _ _ =>
        .bind (.modify fun w hw => ?_) fun _ _ => .pure trivial
      exact hw.ofGiven rfl hw.orderly.cache

theorem reportedEngine_returns (path : String) :
    Returns g.Within g.Slips (reportedEngine? path settings) := by
  unfold reportedEngine?
  refine .bind (engine_contained hs path).recover fun outcome _ => ?_
  match outcome with
  | .error f => exact .bind (log_returns _ _) fun _ _ => .pure trivial
  | .ok none => exact .bind (log_returns _ _) fun _ _ => .pure trivial
  | .ok (some e) => exact .pure trivial

end

end Installation

/-! ## Asking the formatter -/

namespace Engine

theorem call_contained (e : Engine) {method : String} (hmethod : method ≠ "format") (payload : Json) :
    Contained g.Within (OrderlyResult method) (FailsOr .engine g.Slips) (e.call method payload) := by
  unfold call
  refine .bind (log_returns _ _) fun _ _ => .bind (start_contained _ _) fun reply hreply => ?_
  obtain ⟨hreply, hreplies⟩ := hreply
  cases reply with
  | notStarted reason => exact .fail rfl
  | malformed reason => exact .throw (.inr (.malformed hreplies))
  | finished stdout stderr exitCode =>
    refine .bind .get fun w hw => ?_
    rw [hw.limits]
    exact .ofExcept (resultOf_slips hmethod hreplies hreply)

theorem fileInfo_contained (e : Engine) (path : String) (options : Fields) :
    Contained g.Within (fun _ => True) (FailsOr .engine g.Slips) (e.fileInfo path options) := by
  unfold fileInfo
  refine .bind (e.call_contained (by decide) _) fun answer hanswer => .ofExcept ?_
  obtain ⟨info, hinfo⟩ := FileInfo.ofEngine_orderly (hanswer.1 rfl)
  rw [hinfo]
  exact .ok trivial

theorem languageTable_contained (e : Engine) :
    Contained g.Within (fun _ => True) (FailsOr .engine g.Slips) e.languageTable := by
  unfold languageTable
  refine .bind .get fun w _ => ?_
  split
  · exact .pure trivial
  · refine .bind (e.call_contained (by decide) _) fun answer hanswer => ?_
    obtain ⟨table, htable⟩ := Language.tableOfEngine_orderly (hanswer.2 rfl)
    rw [htable]
    refine .ofOk (.bind (.modify fun w hw => ?_) fun _ _ => .pure trivial)
    exact hw.ofGiven rfl hw.orderly.cache

theorem resolveConfig_contained (e : Engine) (path : String) (options : Fields) :
    Contained g.Within (fun _ => True) (FailsOr .engine g.Slips) (e.resolveConfig path options) := by
  unfold resolveConfig
  refine .bind (e.call_contained (by decide) _) fun answer _ => ?_
  split <;> exact .pure trivial

theorem configFile_contained (e : Engine) (path : String) :
    Contained g.Within (fun _ => True) (FailsOr .engine g.Slips) (e.configFile path) := by
  unfold configFile
  exact .bind (e.call_contained (by decide) _) fun _ _ => .pure trivial

/-- Formatting may end in any fault, but leaves the world orderly. -/
theorem format_contained (e : Engine) (text : String) (options : Fields) :
    Contained g.Within (fun _ => True) (fun _ => True) (e.format text options) :=
  World.Frame.contained (format_frame fun _ _ => trivial) fun w _ => by
    cases (e.format text options w).1
    · exact .error trivial
    · exact .ok trivial

end Engine

/-! ## Local configuration and ignore files -/

namespace LocalConfiguration

theorem namedFile_returns (path : String) {settings : Settings} (hs : settings.Textual) :
    Returns g.Within g.Slips (namedFile path settings) := by
  unfold namedFile
  split
  · exact .pure trivial
  · next s _ =>
    refine .bind .get fun w hw => ?_
    obtain ⟨resolved?, hresolved⟩ := Workspace.resolve_orderly hw.orderly.folders w.home path s
    rw [hresolved]
    exact .ofExcept (.ok trivial)
  · next v hv hconfig =>
    obtain ⟨s, rfl⟩ := hs.configPath v hconfig
    exact absurd rfl (hv s)

theorem ask_contained (e : Engine) (path : String) (settings : Settings) (file : Option String) :
    Contained g.Within (fun _ => True) (FailsOr .engine g.Slips) (ask e path settings file) := by
  unfold ask hasFile
  refine .bind (P := fun _ => True) ?_ fun governed _ => ?_
  · cases file with
    | some f => exact .pure trivial
    | none => exact .bind (e.configFile_contained path) fun _ _ => .pure trivial
  · split
    · exact .bind (log_returns _ _) fun _ _ => .pure trivial
    · refine .bind (e.resolveConfig_contained path _) fun options? _ => ?_
      cases options? <;> exact .pure trivial

theorem withEngine_returns (e : Engine) (path : String) {settings : Settings}
    (hs : settings.Textual) : Returns g.Within g.Slips (withEngine e path settings) := by
  unfold withEngine
  refine .bind (namedFile_returns path hs) fun file _ =>
    .bind (ask_contained e path settings file).recover fun outcome _ => ?_
  cases outcome with
  | ok config => exact .pure trivial
  | error f => exact .bind (log_returns _ _) fun _ _ => .pure trivial

theorem find_returns {d : Snapshot} {path : String} (hpath : d.path = .ok path)
    {settings : Settings} (hs : settings.Textual) :
    Returns g.Within g.Slips (find d settings) := by
  unfold find
  split
  · exact .pure trivial
  · rw [hpath]
    refine .ofOk (.bind (Installation.engine_contained hs path).recover fun outcome _ => ?_)
    match outcome with
    | .ok (some e) => exact withEngine_returns e path hs
    | .ok none => exact .pure trivial
    | .error _ => exact .pure trivial

end LocalConfiguration

namespace IgnoreFile

theorem locate_slips {w : World} (hw : w.Orderly) (path name : String) :
    EndsIn (fun _ => True) w.Slips (locate w path name) := by
  obtain ⟨named?, hnamed⟩ := Workspace.resolve_orderly hw.folders w.home path name
  obtain ⟨folder?, hfolder⟩ := Folder.containing_orderly hw.folders path
  unfold locate nearest
  rw [hnamed, hfolder]
  dsimp only [bind, Except.bind]
  split
  · exact .ok trivial
  · split
    · exact .ok trivial
    · have hfound := Workspace.findUp_slips w name (Spelling.directory path)
        (folder?.map fun f => f.2.toString)
      revert hfound
      generalize Workspace.findUp w.files name (Spelling.directory path)
        (folder?.map fun f => f.2.toString) = r
      intro hfound
      cases hfound with
      | ok _ => exact .ok trivial
      | error he => exact .error he

theorem find_returns (path name : String) :
    Returns g.Within g.Slips (find path (.str name)) := by
  unfold find
  split
  · exact .pure trivial
  · refine .bind .get fun w hw => .ofExcept ?_
    have hlocated := locate_slips hw.orderly path name
    revert hlocated
    generalize locate w path name = r
    intro hlocated
    cases hlocated with
    | ok _ => exact .ok trivial
    | error he => exact .error (he.ofGiven hw.given)

end IgnoreFile

/-! ## A request for edits -/

/-- A fault in which a request for edits of a document may end, with settings that have been fetched:
one that slips, or that of data which the request logs and which cannot be rendered. -/
inductive World.Escapes (g : World) (d : Snapshot) (request : FormatRequest) (outcome : Resolution)
    (e : Fault) : Prop
  | slips : g.Slips e → Escapes g d request outcome e
  | unrenderable {settings : Settings} {entry : LogEntry} : outcome = .ok settings →
      World.collaborators.Logs g.Within d request settings entry → g.Unrenderable entry e →
      Escapes g d request outcome e

/-- A fault that slips escapes. -/
theorem Act.Contained.escapes {α : Type} {Q : α → Prop} {x : Act World α} {d : Snapshot}
    {request : FormatRequest} {outcome : Resolution} (h : Contained g.Within Q g.Slips x) :
    Contained g.Within Q (g.Escapes d request outcome) x :=
  h.mono (fun _ => id) fun _ => .slips

theorem Act.Contained.fails {α : Type} {Q : α → Prop} {stage : Stage} {x : Act World α}
    {d : Snapshot} {request : FormatRequest} {outcome : Resolution}
    (h : Contained g.Within Q (FailsOr stage g.Slips) x) :
    Contained g.Within Q (FailsOr stage (g.Escapes d request outcome)) x :=
  h.mono (fun _ => id) fun _ => .imp_right .slips

theorem collaborators_contained {d : Snapshot} {path : String} (hpath : d.path = .ok path)
    (request : FormatRequest) {outcome : Resolution} {settings : Settings}
    (ho : outcome = .ok settings) (hs : settings.Textual) :
    World.collaborators.Contained g.Within (g.Escapes d request outcome) d request settings where
  log entry h := (logEntry_returns entry).mono (fun _ => id) fun _ => .unrenderable ho h
  localConfig := (LocalConfiguration.find_returns hpath hs).escapes
  engine path := (Installation.reportedEngine_returns hs path).escapes
  ignoreFile ht file := by
    obtain ⟨name, hname⟩ := hs.ignorePath ht
    rw [hname]
    exact (IgnoreFile.find_returns file name).escapes
  fileInfo e path options := (e.fileInfo_contained path options).fails
  languages e := e.languageTable_contained.fails
  format := Engine.format_contained

/-- Once the settings are there, or could not be fetched, a request for edits returns them. -/
theorem Continuation.resume_returns {d : Snapshot} {path' : String} (hpath : d.path = .ok path')
    {outcome : Resolution} (ho : SettingsCache.OrderlyOutcome outcome) (path : String)
    (request : FormatRequest) (label : Option String) :
    Contained g.Within (fun a => ∃ es, a = .edits es) (g.Escapes d request outcome)
      ((Continuation.edits d path request label).resume outcome) := by
  have hcomplete : Returns g.Within (g.Escapes d request outcome)
      (Pipeline.complete World.collaborators d.text d path request outcome) :=
    Pipeline.complete_returns (fun level message => log_returns level message)
      (fun settings hok hs => collaborators_contained hpath request hok hs) ho d.text path
  have happly : ∀ es, Returns g.Within (g.Escapes d request outcome) (applyEdits d es label) :=
      fun es => by
    unfold applyEdits
    split
    · split
      · exact .pure trivial
      · refine .modify fun w hw => ?_
        exact hw.ofGiven rfl hw.orderly.cache
    · exact .pure trivial
  unfold resume
  exact .bind hcomplete fun result _ => .bind (happly _) fun _ _ => .pure ⟨_, rfl⟩

end FormatServer
