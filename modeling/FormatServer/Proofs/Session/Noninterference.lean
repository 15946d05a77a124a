import FormatServer.Proofs.Session.Steps
import FormatServer.Proofs.Session.Untrusted
import FormatServer.Proofs.World.Alike

/-!
# Settings have no influence on an untrusted session

Two untrusted sessions whose clients differ in settings only, and only in what sanitized settings
drop, stay alike (`Session.Alike`) and report the same, but for settings that are shown to whoever
asks for them (`untrusted_noninterference`).
-/

set_option autoImplicit false

namespace FormatServer

open Act

/-! ## What is compared -/

/-- The answer without the settings that it shows. -/
def Answer.redacted : Answer → Answer
  | .settings _ => .settings {}
  | .finished a => .finished a.redacted
  | a => a

/-- The state of a task without the settings that it shows. -/
def TaskState.redacted : TaskState → TaskState
  | .ended result => .ended (result.map Answer.redacted)
  | state => state

def Task.redacted (t : Task) : Task := { t with state := t.state.redacted }

/-- The report without the settings that it shows. -/
def Report.redacted (r : Report) : Report := { r with result := r.result.map Answer.redacted }

/-- Two answers differ in the settings that they show only. -/
def Answer.Alike (a a' : Answer) : Prop := a.redacted = a'.redacted

inductive Progress.Alike : Progress → Progress → Prop
  | ended {a a' : Answer} : a.Alike a' → Alike (.ended a) (.ended a')
  | waiting (fetch : Nat) (rest : Continuation) : Alike (.waiting fetch rest) (.waiting fetch rest)

inductive TaskState.Alike : TaskState → TaskState → Prop
  | waiting (fetch : Nat) (rest : Continuation) : Alike (.waiting fetch rest) (.waiting fetch rest)
  | ended {result result' : Except Fault Answer} : SameEnd Answer.Alike result result' →
      Alike (.ended result) (.ended result')
  | cancelled : Alike .cancelled .cancelled

structure Task.Alike (t t' : Task) : Prop where
  id : t.id = t'.id
  state : t.state.Alike t'.state

/-- Two untrusted sessions differ in settings only. -/
structure Session.Alike (s s' : Session) : Prop where
  world : s.world.Alike s'.world
  documents : s.documents = s'.documents
  tasks : List.Forall₂ Task.Alike s.tasks s'.tasks
  configurable : s.configurable = s'.configurable
  attached : s.attached = s'.attached

/-- Two steps are the same but for the settings that the client answers, which agree. -/
inductive Step.Alike : Step → Step → Prop
  | same (st : Step) : Alike st st
  | client {client client' : Client} : client.Agree client' → Alike (.client client) (.client client')
  | answer (fetch : Nat) {a a' : Except String Json} : SettingsCache.AgreeAsAnswers a a' →
      Alike (.answer fetch a) (.answer fetch a')
  | start (id : String) {st st' : Step} : Alike st st' → Alike (.start id st) (.start id st')

theorem Act.SameEnd.redacted {r r' : Except Fault Answer} (h : SameEnd Answer.Alike r r') :
    r.map Answer.redacted = r'.map Answer.redacted := by
  cases h with
  | ok h => exact congrArg Except.ok h
  | error e => rfl

theorem Task.Alike.redacted {t t' : Task} (h : t.Alike t') : t.redacted = t'.redacted := by
  obtain ⟨id, state⟩ := t
  obtain ⟨id', state'⟩ := t'
  obtain ⟨rfl, hstate⟩ := h
  cases hstate with
  | waiting fetch rest => rfl
  | ended h =>
    show Task.mk id (.ended _) = Task.mk id (.ended _)
    rw [h.redacted]
  | cancelled => rfl

theorem SettingsCache.AgreeAsAnswers.refl : ∀ a : Except String Json, AgreeAsAnswers a a
  | .error reason => .error reason
  | .ok payload => .ok (.same payload)

theorem Client.Agree.refl (c : Client) : c.Agree c where
  settings n uri := by
    cases c.settings n uri with
    | pending => exact .pending
    | answered a => exact .answered (.refl a)
  packageManager := rfl

/-! ## Requests -/

theorem Request.announce_alike (r : Request) : Act.Alike World.Alike Eq r.announce r.announce := by
  have announce := Pipeline.announce_alike World.collaborators_alike
  cases r with
  | settings uri => exact .pure rfl
  | engine path => exact .bind (.ofExcept (.refl (fun _ => rfl) _)) fun _ _ e => e ▸ .pure rfl
  | text d source request => exact .bind (announce d) fun _ _ e => e ▸ .pure rfl
  | edits d request label => exact .bind (announce d) fun _ _ e => e ▸ .pure rfl

theorem applyEdits_alike (d : Snapshot) (edits : List TextEdit) (label : Option String) :
    Act.Alike World.Alike (fun _ _ => True) (applyEdits d edits label) (applyEdits d edits label) := by
  cases label with
  | none => exact .pure trivial
  | some label =>
    unfold applyEdits
    dsimp only
    by_cases hedits : edits.isEmpty = true
    · rw [if_pos hedits]
      exact .pure trivial
    · rw [if_neg hedits]
      exact World.send_alike _

/-- What is left to do is done alike with settings that are alike. -/
theorem Continuation.resume_alike (rest : Continuation) {outcome outcome' : Resolution}
    (h : SameEnd Settings.Alike outcome outcome') :
    Act.Alike World.Alike Answer.Alike (rest.resume outcome) (rest.resume outcome') := by
  have complete := Pipeline.complete_alike World.collaborators_alike
  cases rest with
  | settings => exact .bind (.ofExcept h) fun _ _ _ => .pure rfl
  | engine path =>
    refine .bind (.ofExcept h) fun settings settings' hs => ?_
    exact .bind (Installation.reportedEngine_alike hs path) fun _ _ e => e ▸ .pure rfl
  | text d path source request =>
    exact .bind (complete source d path request h) fun _ _ e => e ▸ .pure rfl
  | edits d path request label =>
    refine .bind (complete d.text d path request h) fun result _ e => ?_
    subst e
    exact .bind (applyEdits_alike d _ label) fun _ _ _ => .pure rfl

theorem Request.run_alike (r : Request) : Act.Alike World.Alike Progress.Alike r.run r.run := by
  have ends : ∀ (rest : Continuation) {outcome outcome' : Resolution},
      SameEnd Settings.Alike outcome outcome' → Act.Alike World.Alike Progress.Alike
        (do return Progress.ended (← rest.resume outcome))
        (do return Progress.ended (← rest.resume outcome')) := fun rest _ _ h =>
    .bind (rest.resume_alike h) fun _ _ h => .pure (.ended h)
  unfold run
  refine .bind r.announce_alike fun announced _ e => ?_
  subst e
  obtain ⟨uri, rest⟩ := announced
  refine .bind (.recover (World.fetchSettings_alike uri) .settings) fun n? _ hn => ?_
  obtain rfl := hn.eq
  cases n? with
  | error f => exact ends rest (.error _)
  | ok n =>
    refine .bind .get fun w w' h => ?_
    have ho := h.cache.outcome? n
    generalize w.cache.outcome? n = o at ho ⊢
    generalize w'.cache.outcome? n = o' at ho ⊢
    cases ho with
    | none => exact .pure (.waiting n rest)
    | some ho => exact ends rest ho

/-! ## Changes around the server -/

namespace World.Alike

variable {w w' : World} (h : w.Alike w')
include h

theorem withFiles (files : Files) : ({ w with files } : World).Alike { w' with files } :=
  { h with files := rfl }

theorem withClient {client client' : Client} (hclient : client.Agree client') :
    ({ w with client } : World).Alike { w' with client := client' } :=
  { h with client := hclient }

theorem withProcesses (processes : Processes) :
    ({ w with processes } : World).Alike { w' with processes } :=
  { h with processes := rfl }

theorem withFolders (folders : List Folder) :
    ({ w with folders } : World).Alike { w' with folders } :=
  { h with folders := rfl }

end World.Alike

namespace Session

/-! ## Tasks -/

theorem resumeTask_alike (fetch : Nat) {outcome outcome' : Resolution}
    (ho : SameEnd Settings.Alike outcome outcome') {w w' : World} (hw : w.Alike w') {t t' : Task}
    (ht : t.Alike t') : (resumeTask fetch outcome w t).1.Alike (resumeTask fetch outcome' w' t').1 ∧
      (resumeTask fetch outcome w t).2.Alike (resumeTask fetch outcome' w' t').2 := by
  obtain ⟨id, state⟩ := t
  obtain ⟨id', state'⟩ := t'
  obtain ⟨rfl, hstate⟩ := ht
  unfold resumeTask
  cases hstate with
  | waiting n rest =>
    dsimp only
    split
    · obtain ⟨hworld, hresult⟩ := rest.resume_alike ho w w' hw
      exact ⟨hworld, rfl, .ended hresult⟩
    · exact ⟨hw, rfl, .waiting n rest⟩
  | ended h => exact ⟨hw, rfl, .ended h⟩
  | cancelled => exact ⟨hw, rfl, .cancelled⟩

theorem resumeTasks_alike (fetch : Nat) {outcome outcome' : Resolution}
    (ho : SameEnd Settings.Alike outcome outcome') {w w' : World} (hw : w.Alike w')
    {ts ts' : List Task} (hts : List.Forall₂ Task.Alike ts ts') :
    (resumeTasks fetch outcome w ts).1.Alike (resumeTasks fetch outcome' w' ts').1 ∧
      List.Forall₂ Task.Alike (resumeTasks fetch outcome w ts).2
        (resumeTasks fetch outcome' w' ts').2 := by
  induction hts generalizing w w' with
  | nil => exact ⟨hw, .nil⟩
  | cons ht _ ih =>
    rw [resumeTasks_cons, resumeTasks_cons]
    obtain ⟨hw, ht⟩ := resumeTask_alike fetch ho hw ht
    obtain ⟨hw, hts⟩ := ih hw
    exact ⟨hw, .cons ht hts⟩

theorem cancelIn_alike (id : String) {ts ts' : List Task} (hts : List.Forall₂ Task.Alike ts ts') :
    List.Forall₂ Task.Alike (cancelIn id ts).1 (cancelIn id ts').1 ∧
      (cancelIn id ts).2 = (cancelIn id ts').2 := by
  induction hts with
  | nil => exact ⟨.nil, rfl⟩
  | @cons t t' ts ts' ht hts ih =>
    unfold cancelIn
    rw [ht.id]
    split
    · obtain ⟨id, state⟩ := t
      obtain ⟨id', state'⟩ := t'
      obtain ⟨rfl, hstate⟩ := ht
      cases hstate with
      | waiting n rest => exact ⟨.cons ⟨rfl, .cancelled⟩ hts, rfl⟩
      | ended h => exact ⟨.cons ⟨rfl, .ended h⟩ hts, rfl⟩
      | cancelled => exact ⟨.cons ⟨rfl, .cancelled⟩ hts, rfl⟩
    · exact ⟨.cons ht ih.1, ih.2⟩

theorem find?_alike (id : String) {ts ts' : List Task} (hts : List.Forall₂ Task.Alike ts ts') :
    Option.Rel Task.Alike (ts.find? fun t => t.id = some id) (ts'.find? fun t => t.id = some id) := by
  induction hts with
  | nil => exact .none
  | cons ht _ ih =>
    rw [List.find?_cons, List.find?_cons, ht.id]
    split
    · exact .some ht
    · exact ih

namespace Alike

variable {s s' : Session} (h : s.Alike s')
include h

/-- The world of alike sessions may change to alike ones. -/
theorem withWorld {w w' : World} (hw : w.Alike w') :
    ({ s with world := w } : Session).Alike { s' with world := w' } :=
  { h with world := hw }

/-- The tasks of alike sessions may change to alike ones. -/
theorem withTasks {ts ts' : List Task} (hts : List.Forall₂ Task.Alike ts ts') :
    ({ s with tasks := ts } : Session).Alike { s' with tasks := ts' } :=
  { h with tasks := hts }

theorem withDocuments (documents : List (String × Snapshot)) :
    ({ s with documents } : Session).Alike { s' with documents } :=
  { h with documents := rfl }

theorem task? (id : String) : Option.Rel Task.Alike (s.task? id) (s'.task? id) :=
  find?_alike id (List.rel_reverse h.tasks)

end Alike

/-! ## Steps -/

theorem onWorld_alike {α β : Type} {P : α → β → Prop} {x : Act World α} {y : Act World β}
    (h : Act.Alike World.Alike P x y) : Act.Alike Session.Alike P (onWorld x) (onWorld y) := by
  intro s s' hs
  rw [onWorld_apply, onWorld_apply]
  obtain ⟨hw, hend⟩ := h s.world s'.world hs.world
  exact ⟨hs.withWorld hw, hend⟩

theorem reply_alike {a a' : Answer} (h : a.Alike a') :
    Act.Alike Session.Alike Progress.Alike (reply a) (reply a') :=
  .pure (.ended h)

theorem changeWorld_alike {f g : World → World} (h : ∀ w w', w.Alike w' → (f w).Alike (g w')) :
    Act.Alike Session.Alike Progress.Alike (changeWorld f) (changeWorld g) :=
  .bind (onWorld_alike (.modify h)) fun _ _ _ => reply_alike rfl

theorem request_alike (r : Request) :
    Act.Alike Session.Alike Progress.Alike (request r) (request r) :=
  onWorld_alike r.run_alike

theorem connect_alike (options : Json) (folders : List Folder) (configuration : Option Json) :
    Act.Alike Session.Alike Progress.Alike (connect options folders configuration)
      (connect options folders configuration) := by
  unfold connect
  refine .bind (.modify fun s s' h => ?_) fun _ _ _ => ?_
  · refine { h with
      world := { h.world with config := ?_, folders := rfl }
      configurable := rfl
      attached := rfl }
    show s.world.config.withOptions options = s'.world.config.withOptions options
    rw [h.world.config]
  · refine .bind (onWorld_alike (World.log_alike _ _)) fun _ _ _ => .bind .get fun s s' h => ?_
    rw [h.world.config, h.configurable]
    exact reply_alike rfl

theorem ready_alike : Act.Alike Session.Alike Progress.Alike ready ready := by
  unfold ready
  refine .bind (onWorld_alike (World.log_alike _ _)) fun _ _ _ => .bind .get fun s s' h => ?_
  rw [h.configurable]
  split
  · exact .bind (onWorld_alike (World.send_alike _)) fun _ _ _ => reply_alike rfl
  · exact reply_alike rfl

theorem trust_alike {params : Params} (h : params.isTrusted = false) :
    Act.Alike Session.Alike Progress.Alike (trust params) (trust params) := by
  unfold trust
  refine .bind (onWorld_alike (World.log_alike _ _)) fun _ _ _ => changeWorld_alike fun w w' hw => ?_
  rw [h]
  exact { hw with left := rfl, right := rfl }

theorem formatOpen_alike (uri : String) (requestFor : Snapshot → FormatRequest) :
    Act.Alike Session.Alike Progress.Alike (formatOpen uri requestFor)
      (formatOpen uri requestFor) := by
  unfold formatOpen
  refine .bind .get fun s s' h => ?_
  rw [h.documents]
  split
  · exact request_alike _
  · exact reply_alike rfl

theorem openDocument_alike (uri : Json) :
    Act.Alike Session.Alike Eq (openDocument? uri) (openDocument? uri) := by
  unfold openDocument?
  split
  · exact .pure rfl
  · cases uri with
    | str u =>
      refine .bind .get fun s s' h => ?_
      rw [h.documents]
      exact .pure rfl
    | arr _ => exact .throw _
    | obj _ => exact .throw _
    | _ => exact .pure rfl

theorem forceFormat_alike (arguments : Params) :
    Act.Alike Session.Alike Progress.Alike (forceFormat arguments) (forceFormat arguments) := by
  unfold forceFormat
  refine .bind (.ofExcept (.refl (fun _ => rfl) _)) fun uri _ e => ?_
  subst e
  refine .bind (openDocument_alike uri) fun d? _ e => ?_
  subst e
  cases d? with
  | some d => exact request_alike _
  | none => exact .bind (onWorld_alike (World.log_alike _ _)) fun _ _ _ => reply_alike rfl

theorem engine_alike (path : String) :
    Act.Alike Session.Alike Progress.Alike (engine path none) (engine path none) := by
  unfold engine
  dsimp only
  split
  · exact request_alike _
  · -- the default settings name no module, no more than sanitized ones do
    have hdefault : Installation.reportedEngine? path {} =
        Installation.reportedEngine? path (Settings.sanitized {}) := rfl
    rw [hdefault]
    have hsafe : (Settings.sanitized {}).Safe := rfl
    have hengine := Installation.reportedEngine_alike (.refl hsafe) path
    exact .bind (onWorld_alike hengine) fun _ _ e => e ▸ reply_alike rfl

theorem answer_alike (fetch : Nat) {a a' : Except String Json}
    (h : SettingsCache.AgreeAsAnswers a a') :
    Act.Alike Session.Alike Progress.Alike (answer fetch a) (answer fetch a') := by
  refine .bind (onWorld_alike (.modify fun w w' hw => hw.withCache ?_)) fun _ _ _ => reply_alike rfl
  rw [hw.left, hw.right]
  exact hw.cache.receive h fetch

theorem resume_alike (fetch : Nat) :
    Act.Alike Session.Alike Progress.Alike (resume fetch) (resume fetch) := by
  intro s s' hs
  rw [resume_apply, resume_apply]
  refine ⟨?_, .ok (.ended rfl)⟩
  have ho := hs.world.cache.outcome? fetch
  generalize s.world.cache.outcome? fetch = o at ho ⊢
  generalize s'.world.cache.outcome? fetch = o' at ho ⊢
  cases ho with
  | none => exact hs
  | some ho =>
    obtain ⟨hworld, htasks⟩ := resumeTasks_alike fetch ho hs.world hs.tasks
    exact (hs.withWorld hworld).withTasks htasks

theorem poll_alike (id : String) :
    Act.Alike Session.Alike Progress.Alike (poll id) (poll id) := by
  unfold poll
  refine .bind .get fun s s' h => ?_
  have ht := h.task? id
  generalize s.task? id = t? at ht ⊢
  generalize s'.task? id = t?' at ht ⊢
  cases ht with
  | none => exact .throw _
  | @some t t' ht =>
    have hstate := ht.state
    dsimp only [Option.map]
    generalize t.state = state at hstate ⊢
    generalize t'.state = state' at hstate ⊢
    cases hstate with
    | waiting => exact reply_alike rfl
    | ended hend =>
      refine .bind (.ofExcept hend) fun a a' ha => reply_alike ?_
      exact congrArg Answer.finished ha
    | cancelled => exact reply_alike rfl

theorem cancel_alike (id : String) :
    Act.Alike Session.Alike Progress.Alike (cancel id) (cancel id) := by
  unfold cancel
  refine .bind .get fun s s' h => ?_
  have ht := h.task? id
  obtain ⟨htasks, hfound⟩ := cancelIn_alike id (List.rel_reverse h.tasks)
  have hcancel : Act.Alike Session.Alike Progress.Alike (σ := Session) (do
      set { s with tasks := (cancelIn id s.tasks.reverse).1.reverse }
      reply (.wasWaiting (cancelIn id s.tasks.reverse).2)) (do
      set { s' with tasks := (cancelIn id s'.tasks.reverse).1.reverse }
      reply (.wasWaiting (cancelIn id s'.tasks.reverse).2)) := by
    rw [hfound]
    exact .bind (.set (h.withTasks (List.rel_reverse htasks))) fun _ _ _ => reply_alike rfl
  generalize s.task? id = t? at ht ⊢
  generalize s'.task? id = t?' at ht ⊢
  cases ht with
  | none => exact .throw _
  | some _ => exact hcancel

theorem addTask_alike (id : Option String) {p p' : Except Fault Progress}
    (h : SameEnd Progress.Alike p p') :
    Act.Alike Session.Alike (fun _ _ => True) (addTask id p) (addTask id p') := by
  have add : ∀ {state state' : TaskState}, state.Alike state' →
      Act.Alike Session.Alike (fun _ _ => True) (addTask.add id state) (addTask.add id state') :=
    fun hstate => .modify fun s s' hs =>
      hs.withTasks (List.rel_append hs.tasks (.cons ⟨rfl, hstate⟩ .nil))
  cases h with
  | ok h =>
    cases h with
    | ended h => exact add (.ended (.ok h))
    | waiting n rest => exact add (.waiting n rest)
  | error e => exact add (.ended (.error e))

/-- What is put in the background is done alike. -/
theorem start_alike (id : String) {st st' : Step}
    (h : Act.Alike Session.Alike Progress.Alike (take st) (take st')) :
    Act.Alike Session.Alike Progress.Alike (take (.start id st)) (take (.start id st')) :=
  .bind (.attempt h) fun _ _ hp => .bind (addTask_alike (some id) hp) fun _ _ _ => reply_alike rfl

theorem take_same {st : Step} (hst : st.isMessage = true) (htrust : st.grantsTrust = false) :
    Act.Alike Session.Alike Progress.Alike (take st) (take st) := by
  induction st with
  | start id st ih => exact start_alike id (ih hst htrust)
  | connect options folders configuration => exact connect_alike options folders configuration
  | ready => exact ready_alike
  | trust params => exact trust_alike htrust
  | changeFolders added removed =>
    refine changeWorld_alike fun w w' hw => ?_
    rw [hw.folders]
    exact hw.withFolders _
  | setFolders folders => exact changeWorld_alike fun w w' hw => hw.withFolders folders
  | changeConfiguration =>
    exact .bind (onWorld_alike (World.log_alike _ _)) fun _ _ _ => reply_alike rfl
  | shutdown => exact changeWorld_alike fun w w' hw => hw.withCache hw.cache.clear
  | openDocument uri text languageId version =>
    refine .bind (.modify fun s s' h => ?_) fun _ _ _ => reply_alike rfl
    rw [h.documents]
    exact h.withDocuments _
  | closeDocument uri =>
    refine .bind (.modify fun s s' h => ?_) fun _ _ _ => reply_alike rfl
    rw [h.documents]
    exact h.withDocuments _
  | format uri => exact formatOpen_alike uri _
  | formatRange uri range => exact formatOpen_alike uri _
  | forceFormat arguments => exact forceFormat_alike arguments
  | provideEdits d r => exact request_alike _
  | formatText d text r => exact request_alike _
  | settings uri => exact request_alike _
  | engine path payload =>
    cases payload with
    | none => exact engine_alike path
    | some _ => cases hst
  | localConfig d payload => cases hst
  | ignoreFile path setting =>
    exact .bind (onWorld_alike (IgnoreFile.find_alike path setting)) fun _ _ e => e ▸ reply_alike rfl
  | packageManager folderUri => cases hst
  | client client => exact changeWorld_alike fun w w' hw => hw.withClient (.refl client)
  | processes reply => exact changeWorld_alike fun w w' hw => hw.withProcesses _
  | write path node =>
    refine changeWorld_alike fun w w' hw => ?_
    rw [hw.files]
    exact hw.withFiles _
  | remove path =>
    refine changeWorld_alike fun w w' hw => ?_
    rw [hw.files]
    exact hw.withFiles _
  | answer fetch a => exact answer_alike fetch (.refl a)
  | evict fetch => exact changeWorld_alike fun w w' hw => hw.withCache (hw.cache.evict fetch)
  | resume fetch => exact resume_alike fetch
  | poll id => exact poll_alike id
  | cancel id => exact cancel_alike id

theorem take_alike {st st' : Step} (h : st.Alike st') (hst : st.isMessage = true)
    (htrust : st.grantsTrust = false) :
    Act.Alike Session.Alike Progress.Alike (take st) (take st') := by
  induction h with
  | same st => exact take_same hst htrust
  | client h => exact changeWorld_alike fun w w' hw => hw.withClient h
  | answer fetch h => exact answer_alike fetch h
  | start id _ ih => exact start_alike id (ih hst htrust)

theorem takeOrWait_alike {st st' : Step} (h : st.Alike st') (hst : st.isMessage = true)
    (htrust : st.grantsTrust = false) :
    Act.Alike Session.Alike Answer.Alike (takeOrWait st) (takeOrWait st') := by
  unfold takeOrWait
  refine .bind (take_alike h hst htrust) fun p p' hp => ?_
  cases hp with
  | ended ha => exact .pure ha
  | waiting n rest =>
    exact .bind (addTask_alike none (.ok (.waiting n rest))) fun _ _ _ => .pure rfl

/-- In a step that grants no trust alike sessions stay alike, and report the same. -/
theorem step_alike {s s' : Session} (hs : s.Alike s') {st st' : Step} (h : st.Alike st')
    (hst : st.isMessage = true) (htrust : st.grantsTrust = false) :
    (step s st).1.Alike (step s' st').1 ∧ (step s st).2.redacted = (step s' st').2.redacted := by
  have htake := takeOrWait_alike h hst htrust s s' hs
  unfold step
  revert htake
  rcases takeOrWait st s with ⟨result, t⟩
  rcases takeOrWait st' s' with ⟨result', t'⟩
  rintro ⟨hafter, hend⟩
  refine ⟨hafter, ?_⟩
  have hjournal : t.world.journal = t'.world.journal := hafter.world.journal
  have hattached : t.attached = t'.attached := hafter.attached
  have hlogger : t.world.logger = t'.world.logger := hafter.world.logger
  simp only [Report.redacted, Session.shown, hs.world.journal, hjournal, hattached, hlogger,
    Act.SameEnd.redacted hend]

/-- As long as no trust is granted alike sessions stay alike, and report the same. -/
theorem run_alike {s s' : Session} (hs : s.Alike s') {sts sts' : List Step}
    (h : List.Forall₂ Step.Alike sts sts') (hmessages : ∀ st ∈ sts, st.isMessage = true)
    (htrust : ∀ st ∈ sts, st.grantsTrust = false) :
    (run s sts).1.Alike (run s' sts').1 ∧
      (run s sts).2.map Report.redacted = (run s' sts').2.map Report.redacted := by
  induction h generalizing s s' with
  | nil => exact ⟨hs, rfl⟩
  | @cons st st' sts sts' hst _ ih =>
    obtain ⟨hafter, hreport⟩ := step_alike hs hst (hmessages st List.mem_cons_self)
      (htrust st List.mem_cons_self)
    obtain ⟨hend, hreports⟩ := ih hafter (fun st' h => hmessages st' (List.mem_cons_of_mem st h))
      fun st' h => htrust st' (List.mem_cons_of_mem st h)
    refine ⟨hend, ?_⟩
    show (step s st).2.redacted :: _ = (step s' st').2.redacted :: _
    rw [hreport]
    exact congrArg _ hreports

theorem fresh_alike (files : Files) (home : String) {client client' : Client}
    (hclient : client.Agree client') (reply : List Command → Command → Reply) (config : ServerConfig)
    (logger : Logger) (limits : Limits) :
    (fresh files home client reply config logger limits).Alike
      (fresh files home client' reply config logger limits) :=
  ⟨⟨rfl, rfl, hclient, rfl, rfl, rfl, rfl, rfl, rfl, rfl, ⟨.nil, rfl⟩, rfl, rfl, rfl, rfl⟩, rfl, .nil,
    rfl, rfl⟩

/-- Settings that agree on the formatting options and on whether configuration is required are one
and the same to an untrusted session: all reports are the same, with the edits and the processes
in them, and so is all that requests come to in the background. -/
theorem untrusted_noninterference (files : Files) (home : String) {client client' : Client}
    (hclient : client.Agree client') (reply : List Command → Command → Reply) (config : ServerConfig)
    (logger : Logger) (limits : Limits) {sts sts' : List Step}
    (hsteps : List.Forall₂ Step.Alike sts sts')
    (hmessages : ∀ st ∈ sts, st.isMessage = true) (htrust : ∀ st ∈ sts, st.grantsTrust = false) :
    let p := run (fresh files home client reply config logger limits) sts
    let p' := run (fresh files home client' reply config logger limits) sts'
    p.2.map Report.redacted = p'.2.map Report.redacted ∧
      p.1.tasks.map Task.redacted = p'.1.tasks.map Task.redacted := by
  obtain ⟨hend, hreports⟩ := run_alike (fresh_alike files home hclient reply config logger limits)
    hsteps hmessages htrust
  refine ⟨hreports, ?_⟩
  rw [← List.forall₂_eq_eq_eq, List.forall₂_map_left_iff, List.forall₂_map_right_iff]
  exact hend.tasks.imp fun _ _ h => h.redacted

/-- Two payloads that agree on everything that counts. -/
theorem agreeing_settings : Json.AgreeAsSettings
    (.obj [("semi", .bool false), ("prettierPath", .str "/evil"), ("configPath", .str "/evil/rc")])
    (.obj [("requireConfig", .int 0), ("semi", .bool false), ("tabWidth", .null)]) := by
  refine .agree ⟨.inr rfl, ?_⟩ ⟨.inr rfl, ?_⟩ ?_ rfl
  · intro v hv
    cases hv
  · intro v hv
    cases hv
  · simp only [formattingKeys, List.forall_mem_cons]
    and_intros
    all_goals first | rfl | exact List.forall_mem_nil _

theorem untrusted_noninterference_of_paths :
    let named := [("semi", .bool false), ("prettierPath", .str "/evil"),
      ("configPath", .str "/evil/rc")]
    let plain := [("requireConfig", .int 0), ("semi", .bool false), ("tabWidth", .null)]
    let sts := [.openDocument "file:///a.js" "a" none none, .format "file:///a.js"]
    ((run (bundledSession named) sts).2.map fun r => r.launches.length) = [0, 4] ∧
      (run (bundledSession named) sts).2.map Report.redacted =
        (run (bundledSession plain) sts).2.map Report.redacted := by
  intro named plain sts
  have hclient : (clientAnswering named).Agree (clientAnswering plain) :=
    ⟨fun _ _ => .answered (.ok agreeing_settings), rfl⟩
  refine ⟨by decide +kernel, ?_⟩
  exact (untrusted_noninterference formatterFiles "/" hclient formatterReply _ {} {}
    (List.forall₂_same.2 fun st _ => .same st) (by decide) (by decide)).1

end Session

end FormatServer
