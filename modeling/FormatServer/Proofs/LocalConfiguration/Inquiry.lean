import FormatServer.LocalConfiguration
import FormatServer.Proofs.World.Orderly

/-!
# What an engine is asked

For the local configuration of a path an engine is asked which file governs it, unless the settings
name one, and for the options. `Asked` says that it was asked certain inquiries from one world to
another, and nothing else was done; `Inquired` which these are by their answers, and what they come
to (`withEngine_inquired`).
-/

set_option autoImplicit false

namespace FormatServer

open Act

/-! ## Answers -/

/-- What the reply to a call comes to. -/
def Engine.answer (e : Engine) (limits : Limits) (method : String) : Reply → Except Fault Json
  | .notStarted reason => .error (.failure (e.notStarted reason))
  | .malformed reason => .error (.commandMalformed reason)
  | .finished stdout stderr exitCode => e.resultOf limits method stdout stderr exitCode

theorem Engine.call_apply (e : Engine) (method : String) (payload : Json) (w : World) :
    let command := Command.node e.nodePath e.modulePath method
    let reply := w.processes.reply w.processes.started command
    let read := match reply with
      | .finished _ _ _ => some payload
      | _ => none
    e.call method payload w = (e.answer w.limits method reply, { w with
      processes := { w.processes with started := w.processes.started ++ [command] }
      journal := { w.journal with
        launches := w.journal.launches ++ [(⟨command, read⟩ : Launch)]
        records := w.journal.records ++
          [⟨Level.debug, "Calling prettier." ++ method ++ " from " ++ e.modulePath⟩] } }) := by
  intro command reply read
  have hstart : ∀ v, World.start (.node e.nodePath e.modulePath method) (some payload) v =
      (.ok (v.processes.reply v.processes.started command), _) := fun _ => rfl
  unfold call
  rw [bind_ok (rfl : World.log Level.debug _ w = (.ok (), _)), bind_apply, hstart]
  show (match reply with | .notStarted _ => _ | .malformed _ => _ | .finished _ _ _ => _ :
    Act World Json) _ = _
  unfold answer
  cases reply <;> rfl

theorem Engine.answer_stage {e : Engine} {limits : Limits} {method : String} {reply : Reply}
    {f : Failure} (h : e.answer limits method reply = .error (.failure f)) : f.stage = .engine := by
  cases reply with
  | notStarted reason =>
    cases h
    rfl
  | malformed reason => cases h
  | finished stdout stderr exitCode =>
    simp only [answer, resultOf] at h
    split at h
    · cases h
      rfl
    · split at h <;> cases h
      rfl

namespace LocalConfiguration

/-- What an engine is asked, with the reply: for the file that governs a path, or for the options
there. -/
inductive Inquiry where
  | file (reply : Reply)
  | options (carried : Fields) (reply : Reply)

namespace Inquiry

def method : Inquiry → String
  | file _ => "resolveConfigFile"
  | options _ _ => "resolveConfig"

def reply : Inquiry → Reply
  | file reply => reply
  | options _ reply => reply

def payload (path : String) : Inquiry → Json
  | file _ => .obj [("path", .str path)]
  | options carried _ => .obj [("path", .str path), ("options", .obj carried)]

def command (e : Engine) (i : Inquiry) : Command := .node e.nodePath e.modulePath i.method

/-- The process of an inquiry; it reads the payload if it was started. -/
def launch (e : Engine) (path : String) (i : Inquiry) : Launch :=
  ⟨i.command e, match i.reply with
    | .finished _ _ _ => some (i.payload path)
    | _ => none⟩

def answer (e : Engine) (limits : Limits) (i : Inquiry) : Except Fault Json :=
  e.answer limits i.method i.reply

end Inquiry

/-- The replies are those of the processes, after the commands that were started before. -/
def Replied (reply : List Command → Command → Reply) (e : Engine) : List Command → List Inquiry → Prop
  | _, [] => True
  | started, i :: inquiries =>
    i.reply = reply started (i.command e) ∧ Replied reply e (started ++ [i.command e]) inquiries

/-- From `w` on the engine was asked these and nothing else, which left `w'`. -/
structure Asked (e : Engine) (path : String) (inquiries : List Inquiry) (w w' : World) : Prop where
  replied : Replied w.processes.reply e w.processes.started inquiries
  left : ∃ records, w' = { w with
    processes := { w.processes with
      started := w.processes.started ++ inquiries.map (Inquiry.command e) }
    journal := { w.journal with
      launches := w.journal.launches ++ inquiries.map (Inquiry.launch e path), records } }

section
variable {e : Engine} {path : String} {w w' w'' : World} {inquiries more : List Inquiry}

theorem replied_append {reply : List Command → Command → Reply} {started : List Command} :
    Replied reply e started (inquiries ++ more) ↔ Replied reply e started inquiries ∧
      Replied reply e (started ++ inquiries.map (Inquiry.command e)) more := by
  induction inquiries generalizing started with
  | nil => simp [Replied]
  | cons i inquiries ih => simp [Replied, ih, and_assoc]

theorem Asked.refl (e : Engine) (path : String) (w : World) : Asked e path [] w w :=
  ⟨trivial, w.journal.records, by simp⟩

theorem Asked.trans (h : Asked e path inquiries w w') (h' : Asked e path more w' w'') :
    Asked e path (inquiries ++ more) w w'' := by
  obtain ⟨hreplied, records, rfl⟩ := h
  obtain ⟨hreplied', records', rfl⟩ := h'
  exact ⟨replied_append.2 ⟨hreplied, hreplied'⟩, records', by simp [List.append_assoc]⟩

theorem Asked.limits (h : Asked e path inquiries w w') : w'.limits = w.limits := by
  obtain ⟨-, records, rfl⟩ := h
  rfl

/-- Logging is no inquiry. -/
theorem Asked.log (h : Asked e path inquiries w w') (level : Int) (message : String) :
    Asked e path inquiries w (World.log level message w').2 := by
  obtain ⟨hreplied, records, rfl⟩ := h
  exact ⟨hreplied, _, rfl⟩

/-- A call is one inquiry. -/
theorem call_asked (e : Engine) (path : String) (w : World) (i : Inquiry)
    (hi : w.processes.reply w.processes.started (i.command e) = i.reply) :
    (e.call i.method (i.payload path) w).1 = i.answer e w.limits ∧
      Asked e path [i] w (e.call i.method (i.payload path) w).2 := by
  rw [Engine.call_apply]
  refine ⟨?_, ⟨hi.symm, trivial⟩, w.journal.records ++
    [⟨Level.debug, "Calling prettier." ++ i.method ++ " from " ++ e.modulePath⟩], ?_⟩
  · rw [Inquiry.answer, ← hi]
    rfl
  · simp only [List.map_cons, List.map_nil, Inquiry.launch, ← hi]
    rfl

theorem configFile_asked (e : Engine) (path : String) (w : World) :
    ∃ reply, (e.configFile path w).1 =
        (e.answer w.limits "resolveConfigFile" reply).map Json.ifTruthy ∧
      Asked e path [.file reply] w (e.configFile path w).2 := by
  let command := Command.node e.nodePath e.modulePath "resolveConfigFile"
  let reply := w.processes.reply w.processes.started command
  obtain ⟨h, hasked⟩ := call_asked e path w (.file reply) rfl
  unfold Engine.configFile
  rw [map_apply]
  exact ⟨reply, congrArg (Except.map Json.ifTruthy) h, hasked⟩

/-- What the engine's answer for a path comes to. -/
def configIn : Json → LocalConfig
  | .obj fields => .found fields
  | _ => .missing

theorem resolveConfig_asked (e : Engine) (path : String) (options : Fields) (w : World) :
    let x : Act World LocalConfig := do
      match ← e.resolveConfig path options with
      | some options => return .found options
      | none => return .missing
    ∃ reply, (x w).1 = (e.answer w.limits "resolveConfig" reply).map configIn ∧
      Asked e path [.options options reply] w (x w).2 := by
  intro x
  let command := Command.node e.nodePath e.modulePath "resolveConfig"
  let reply := w.processes.reply w.processes.started command
  obtain ⟨h, hasked⟩ := call_asked e path w (.options options reply) rfl
  have hmap : x = (do
      return configIn (← e.call "resolveConfig"
        (.obj [("path", .str path), ("options", .obj options)]))) := by
    simp only [x, Engine.resolveConfig, bind_assoc]
    refine congrArg _ (funext fun answer => ?_)
    cases answer <;> rfl
  rw [hmap, map_apply]
  exact ⟨reply, congrArg (Except.map configIn) h, hasked⟩

/-- What an engine is asked, with the file that is named if one is, and what that comes to. -/
inductive Inquired (e : Engine) (limits : Limits) (settings : Settings) :
    Option String → List Inquiry → Except Fault LocalConfig → Prop
  /-- The engine does not say whether a file governs the path. -/
  | failed (reply : Reply) (f : Fault) : e.answer limits "resolveConfigFile" reply = .error f →
      Inquired e limits settings none [.file reply] (.error f)
  /-- No file does, and one is required. -/
  | disabled (reply : Reply) (v : Json) : e.answer limits "resolveConfigFile" reply = .ok v →
      v.truthy = false → settings.requireConfig = true →
      Inquired e limits settings none [.file reply] (.ok .disabled)
  | unnamed (reply reply' : Reply) (v : Json) : e.answer limits "resolveConfigFile" reply = .ok v →
      ¬ (v.truthy = false ∧ settings.requireConfig = true) →
      Inquired e limits settings none [.file reply, .options (lookupOptions settings none) reply']
        ((e.answer limits "resolveConfig" reply').map configIn)
  | named (file : String) (reply : Reply) :
      Inquired e limits settings (some file) [.options (lookupOptions settings (some file)) reply]
        ((e.answer limits "resolveConfig" reply).map configIn)

theorem ask_inquired (e : Engine) (path : String) (settings : Settings) (file : Option String)
    (w : World) :
    ∃ inquiries, Asked e path inquiries w (ask e path settings file w).2 ∧
      Inquired e w.limits settings file inquiries (ask e path settings file w).1 := by
  unfold ask hasFile
  cases file with
  | some f =>
    rw [bind_ok (rfl : (Pure.pure true : Act World Bool) w = (.ok true, w))]
    simp only [Bool.not_true, Bool.and_false, Bool.false_eq_true, if_false]
    obtain ⟨reply, h, hasked⟩ := resolveConfig_asked e path (lookupOptions settings (some f)) w
    exact ⟨_, hasked, h ▸ .named f reply⟩
  | none =>
    obtain ⟨reply, h, hasked⟩ := configFile_asked e path w
    dsimp only
    rw [bind_apply, map_apply, h]
    cases hanswer : e.answer w.limits "resolveConfigFile" reply with
    | error f => exact ⟨_, hasked, .failed reply f hanswer⟩
    | ok v =>
      have hgoverned : v.ifTruthy.isSome = v.truthy := by
        unfold Json.ifTruthy
        cases v.truthy <;> rfl
      simp only [Except.map, hgoverned]
      split
      · next hshut =>
        rw [Bool.and_eq_true, Bool.not_eq_true'] at hshut
        exact ⟨_, hasked.log _ _, .disabled reply v hanswer hshut.2 hshut.1⟩
      · next hopen =>
        obtain ⟨reply', h', hasked'⟩ := resolveConfig_asked e path (lookupOptions settings none)
          (e.configFile path w).2
        rw [hasked.limits] at h'
        refine ⟨_, hasked.trans hasked', h' ▸ .unnamed reply reply' v hanswer ?_⟩
        simpa [and_comm] using hopen

end

/-! ## With an engine -/

/-- The configuration file that the settings name, resolved for a path. -/
def namedConfig (w : World) (path : String) (settings : Settings) : Except Fault (Option String) :=
  match settings.configPath with
  | none => .ok none
  | some (.str s) => Workspace.resolve w.home w.folders path s
  | some _ => .error .pathNotText

/-- A failure of the engine is an outcome too. -/
def concluded (path : String) : Except Fault LocalConfig → Except Fault LocalConfig
  | .error (.failure f) => .ok (.errored (.invalidConfiguration f.message path))
  | r => r

theorem namedFile_apply (path : String) (settings : Settings) (w : World) :
    namedFile path settings w = (namedConfig w path settings, w) := by
  unfold namedFile namedConfig
  cases settings.configPath with
  | none => rfl
  | some v => cases v <;> rfl

section
variable {e : Engine} {path : String} {settings : Settings} {file : Option String}
  {limits : Limits} {inquiries : List Inquiry} {r : Except Fault LocalConfig}

theorem Inquired.stage {f : Failure}
    (h : Inquired e limits settings file inquiries (.error (.failure f))) : f.stage = .engine := by
  generalize hr : (.error (.failure f) : Except Fault LocalConfig) = r at h
  have of_map {reply : Reply} (h : .error (.failure f) =
      (e.answer limits "resolveConfig" reply).map configIn) : f.stage = .engine := by
    cases hanswer : e.answer limits "resolveConfig" reply with
    | ok v => rw [hanswer] at h; cases h
    | error f' =>
      rw [hanswer] at h
      cases h
      exact Engine.answer_stage hanswer
  cases h with
  | failed reply f' hanswer =>
    cases hr
    exact Engine.answer_stage hanswer
  | disabled => cases hr
  | unnamed => exact of_map hr
  | named => exact of_map hr

theorem withEngine_error {w : World} {f : Fault} (hfile : namedConfig w path settings = .error f) :
    withEngine e path settings w = (.error f, w) := by
  unfold withEngine
  rw [bind_error (hfile ▸ namedFile_apply path settings w)]

theorem withEngine_inquired (w : World) (hfile : namedConfig w path settings = .ok file) :
    ∃ inquiries r, Asked e path inquiries w (withEngine e path settings w).2 ∧
      Inquired e w.limits settings file inquiries r ∧
        (withEngine e path settings w).1 = concluded path r := by
  obtain ⟨inquiries, hasked, hinquired⟩ := ask_inquired e path settings file w
  refine ⟨inquiries, (ask e path settings file w).1, ?_⟩
  unfold withEngine
  rw [bind_ok (hfile ▸ namedFile_apply path settings w), bind_apply, recover_apply]
  revert hasked hinquired
  rcases ask e path settings file w with ⟨r, v⟩
  intro hasked hinquired
  cases r with
  | ok config => exact ⟨hasked, hinquired, rfl⟩
  | error f =>
    cases f
    case failure f =>
      have hstage : settled .engine (.error (.failure f) : Except Fault LocalConfig) =
          .ok (.error f) :=
        settled_ok_error.2 ⟨rfl, hinquired.stage⟩
      rw [hstage]
      exact ⟨hasked.log _ _, hinquired, rfl⟩
    all_goals exact ⟨hasked, hinquired, rfl⟩

end

end LocalConfiguration

end FormatServer
