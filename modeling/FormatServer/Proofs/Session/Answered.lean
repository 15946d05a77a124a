import FormatServer.Proofs.Pipeline.Calls
import FormatServer.Proofs.Session.Tasks

/-!
# Answered requests for edits

A request for edits comes to its answer in the step that makes it, or in the later one in which its
turn comes after the fetch it waits for has ended (`Session.answered`). The client is told to apply
edits for these answers only, in their order, and for each just what it says (`step_applied`). They
are the answers of the pipeline, no more and no fewer, each with the settings and in the world with
which its request goes on (`Session.GoesOn`, `mem_answered`).
-/

set_option autoImplicit false

namespace FormatServer

open Act

/-- A request for edits that has come to its answer. -/
structure Answered where
  d : Snapshot
  request : FormatRequest
  label : Option String
  edits : List TextEdit

/-- What the client is told to apply. -/
def Answered.told (e : Answered) : List Message :=
  match e.label with
  | some label => if e.edits.isEmpty then [] else [.applyEdit label e.d.uri e.edits]
  | none => []

/-- The answer of a request, or of the rest of one, that is a request for edits. -/
def Request.answered? : Request → Except Fault Answer → Option Answered
  | .edits d request label, .ok (.edits es) => some ⟨d, request, label, es⟩
  | _, _ => none

def Continuation.answered? : Continuation → Except Fault Answer → Option Answered
  | .edits d _ request label, .ok (.edits es) => some ⟨d, request, label, es⟩
  | _, _ => none

/-- The answer to which a request has come that stands like this. -/
def Request.answeredAt? (r : Request) : TaskState → Option Answered
  | .ended result => r.answered? result
  | _ => none

/-- The answer to which a task has come that has waited for it. -/
def Task.answered? (t t' : Task) : Option Answered :=
  match t.state, t'.state with
  | .waiting _ rest, .ended result => rest.answered? result
  | _, _ => none

namespace Session

/-- The answer to which the request of a step comes in the step itself. -/
def ownAnswered? (s : Session) (st : Step) : Option Answered :=
  (s.requestOf st).bind fun r => r.answeredAt? (s.stands st)

/-- The requests for edits that come to their answer in a step. -/
def answered (s : Session) (st : Step) : List Answered :=
  (s.tasks.zip (step s st).1.tasks).filterMap (fun p => p.1.answered? p.2) ++
    (s.ownAnswered? st).toList

end Session

/-! ## What the client has been told -/

theorem Continuation.told_eq (rest : Continuation) (result : Except Fault Answer) :
    rest.told result = (rest.answered? result).toList.flatMap Answered.told := by
  unfold told answered?
  cases rest with
  | edits d path request label =>
    cases result with
    | error e => cases label <;> rfl
    | ok a =>
      cases a with
      | edits es =>
        cases label with
        | none => rfl
        | some label => simp [Answered.told]
      | _ => cases label <;> rfl
  | _ => rfl

/-- What the client has been told to apply so far. -/
def World.applied (w : World) : List Message := w.journal.sent.filter Message.applies

theorem Message.applies_of_asksManager {m : Message} (h : m.asksManager = true) :
    m.applies = false := by
  cases m <;> first | rfl | cases h

theorem World.Frame.applied {L : Launch → Prop} {w w' : World}
    (h : World.Frame (fun m => m.asksManager = true) L w w') : w'.applied = w.applied :=
  h.sent.filter_eq fun _ => Message.applies_of_asksManager

theorem World.fetchSettings_applied (uri : String) (w : World) :
    (fetchSettings uri w).2.applied = w.applied := by
  refine fetchSettings_moves (R := fun w w' => w'.applied = w.applied) (fun _ => rfl) uri ?_ w
  intro w key
  exact (Adds.one (P := fun m => m.applies = false) rfl).filter_eq fun _ => id

theorem Continuation.resume_applied (rest : Continuation) (outcome : Resolution) (w : World) :
    (rest.resume outcome w).2.applied =
      w.applied ++ (rest.answered? (rest.resume outcome w).1).toList.flatMap Answered.told := by
  obtain ⟨v, hframe, hv⟩ : ∃ v, World.Frame (fun m => m.asksManager = true) (fun _ => True) w v ∧
      (rest.resume outcome w).2 = v.telling (rest.told (rest.resume outcome w).1) :=
    resume_told (fun settings _ => World.formats (fun _ => rfl) settings) trivial rest
  have htold : (rest.told (rest.resume outcome w).1).filter Message.applies =
      rest.told (rest.resume outcome w).1 :=
    List.filter_eq_self.2 fun m hm => applies_of_mem_told hm
  rw [hv, ← told_eq, World.applied, World.telling, List.filter_append, htold, ← hframe.applied]
  rfl

theorem Request.answered_announced {r : Request} {uri : String} {rest : Continuation}
    (h : r.announced = .ok (uri, rest)) (result : Except Fault Answer) :
    r.answered? result = rest.answered? result := by
  cases r with
  | settings uri' => cases h; rfl
  | engine path =>
    dsimp only [announced] at h
    cases hp : Uri.ofPath path <;> rw [hp] at h <;> cases h
    rfl
  | text d source request =>
    dsimp only [announced] at h
    cases hp : d.path <;> rw [hp] at h <;> cases h
    rfl
  | edits d request label =>
    dsimp only [announced] at h
    cases hp : d.path <;> rw [hp] at h <;> cases h
    cases result with
    | error e => rfl
    | ok a => cases a <;> rfl

theorem Request.answered_error (r : Request) (e : Fault) : r.answered? (.error e) = none := by
  cases r <;> rfl

theorem Request.run_applied (r : Request) (w : World) :
    (r.run w).2.applied =
      w.applied ++ (r.answeredAt? (Session.standing (r.run w).1)).toList.flatMap Answered.told := by
  have announced : ∀ {p}, r.announce w = p → p.2.applied = w.applied := fun h => by
    rw [← h]
    exact (r.announce_frame (M := fun m => m.asksManager = true) (L := fun _ => True) w).applied
  have fetched : ∀ {uri u p}, World.fetchSettings uri u = p → p.2.applied = u.applied := fun h => by
    rw [← h]
    exact World.fetchSettings_applied _ _
  have ends : ∀ {uri rest u v} (outcome : Resolution), r.announce w = (.ok (uri, rest), u) →
      v.applied = u.applied → (Progress.ends (rest.resume outcome v)).2.applied =
        w.applied ++ (r.answeredAt? (Session.standing
          (Progress.ends (rest.resume outcome v)).1)).toList.flatMap Answered.told := by
    intro uri rest u v outcome ha hv
    rw [Session.standing_ends]
    show (rest.resume outcome v).2.applied = w.applied ++ (r.answered? _).toList.flatMap _
    rw [rest.resume_applied, hv, announced ha, answered_announced (announced_of_announce ha)]
  generalize hp : r.run w = p
  have h := r.ran w
  rw [hp] at h
  cases h with
  | unannounced ha =>
    show _ = _ ++ (r.answered? _).toList.flatMap _
    rw [r.answered_error, announced ha]
    exact (List.append_nil _).symm
  | nameless ha hf _ =>
    show _ = _ ++ (r.answered? _).toList.flatMap _
    rw [r.answered_error, fetched hf, announced ha]
    exact (List.append_nil _).symm
  | refused ha hf _ => exact ends _ ha (fetched hf)
  | waits ha hf _ =>
    rw [fetched hf, announced ha]
    exact (List.append_nil _).symm
  | resumes ha hf _ => exact ends _ ha (fetched hf)

namespace Session

theorem answered_self (t : Task) : t.answered? t = none := by
  unfold Task.answered?
  split
  · next h h' => rw [h] at h'; cases h'
  · rfl

theorem resumeTasks_applied (fetch : Nat) (outcome : Resolution) (ts : List Task) (w : World) :
    (resumeTasks fetch outcome w ts).1.applied = w.applied ++
      ((ts.zip (resumeTasks fetch outcome w ts).2).filterMap fun p => p.1.answered? p.2).flatMap
        Answered.told := by
  induction ts generalizing w with
  | nil => exact (List.append_nil _).symm
  | cons t ts ih =>
    rw [resumeTasks_cons]
    obtain ⟨rest, ht⟩ | ht := waits_or_not fetch t
    · rw [resumeTask_waiting outcome w ht]
      have hnow : t.answered? { t with state := .ended (rest.resume outcome w).1 } =
          rest.answered? (rest.resume outcome w).1 := by
        unfold Task.answered?
        rw [ht]
      dsimp only
      rw [ih, rest.resume_applied, List.zip_cons_cons, List.filterMap_cons, hnow, List.append_assoc]
      cases rest.answered? (rest.resume outcome w).1 with
      | none => rfl
      | some answered => rw [Option.toList_some, ← List.flatMap_append]; rfl
    · rw [resumeTask_other outcome w ht]
      dsimp only
      rw [ih, List.zip_cons_cons, List.filterMap_cons, answered_self]

theorem answered_eq (s : Session) (st : Step) :
    s.answered st = (s.tasks.zip (take st.core s).2.tasks).filterMap (fun p => p.1.answered? p.2) ++
      (s.ownAnswered? st).toList := by
  obtain ⟨new, hstate, _⟩ := step_state s st
  have hzip : (s.tasks ++ []).zip ((take st.core s).2.tasks ++ new) = _ :=
    List.zip_append (take_becomes s st).length_eq
  rw [List.append_nil, List.zip_nil_left, List.append_nil] at hzip
  rw [answered, hstate, adding, hzip]

theorem answered_zip {ts ts' : List Task}
    (h : List.Forall₂ (fun t t' : Task => t.answered? t' = none) ts ts') :
    (ts.zip ts').filterMap (fun p => p.1.answered? p.2) = [] :=
  List.filterMap_eq_nil_iff.2 fun _ hp => (List.forall₂_iff_zip.1 h).2 hp

/-- A task comes to an answer only if its turn comes. -/
theorem Becomes.answered_none {s : Session} {st : Step} (hst : ∀ fetch, st.core ≠ .resume fetch)
    {t t' : Task} (h : Becomes s st t t') : t.answered? t' = none := by
  cases h with
  | goes h _ _ _ => exact absurd h (hst _)
  | cancelled _ _ _ => unfold Task.answered?; split <;> first | rfl | contradiction
  | stays _ => exact answered_self t

theorem answered_own {s : Session} {st : Step} (hst : ∀ fetch, st.core ≠ .resume fetch) :
    s.answered st = (s.ownAnswered? st).toList := by
  have hold := answered_zip ((take_becomes s st).imp fun _ _ h => h.answered_none hst)
  rw [answered_eq, hold, List.nil_append]

theorem answered_resume {s : Session} {st : Step} {fetch : Nat} (hst : st.core = .resume fetch) :
    s.answered st =
      (s.tasks.zip (take st.core s).2.tasks).filterMap (fun p => p.1.answered? p.2) := by
  have hown : s.ownAnswered? st = none := by rw [ownAnswered?, requestOf_resume hst]; rfl
  rw [answered_eq, hown]
  exact List.append_nil _

theorem take_applied (s : Session) (st : Step) :
    (take st.core s).2.world.applied = s.world.applied ++ (s.answered st).flatMap Answered.told := by
  by_cases hresume : ∃ fetch, st.core = .resume fetch
  · obtain ⟨fetch, hst⟩ := hresume
    rw [answered_resume hst, hst]
    show (resume fetch s).2.world.applied = _ ++ ((s.tasks.zip (resume fetch s).2.tasks).filterMap
      fun p => p.1.answered? p.2).flatMap Answered.told
    rw [resume_apply]
    cases s.world.cache.outcome? fetch with
    | some outcome => exact resumeTasks_applied fetch outcome s.tasks s.world
    | none =>
      show s.world.applied = _ ++ ((s.tasks.zip s.tasks).filterMap _).flatMap _
      rw [answered_zip (List.forall₂_same.2 fun t _ => answered_self t)]
      exact (List.append_nil _).symm
  have hst : ∀ fetch, st.core ≠ .resume fetch := fun fetch h => hresume ⟨fetch, h⟩
  rw [answered_own hst]
  obtain h | ⟨id, hcore⟩ | ⟨r, hr, htake⟩ | ⟨hr, h⟩ := take_cases s st
  · exact absurd h hresume
  · rw [ownAnswered?, requestOf_cancel hcore, hcore]
    obtain ⟨p, ts, hcancel, _⟩ := cancel_state id s
    show (cancel id s).2.world.applied = _
    rw [hcancel]
    exact (List.append_nil _).symm
  · rw [ownAnswered?, hr, stands_eq, htake]
    show (onWorld r.run s).2.world.applied =
      _ ++ (r.answeredAt? (standing (onWorld r.run s).1)).toList.flatMap _
    rw [onWorld_apply]
    exact r.run_applied s.world
  · rw [ownAnswered?, hr]
    refine (h.sent.filter_eq fun m hm => ?_).trans (List.append_nil _).symm
    rcases hm with hm | ⟨hm, _⟩
    · cases m <;> first | rfl | cases hm
    · exact Message.applies_of_asksManager hm

/-- The client is told to apply what the requests say that come to their answer. -/
theorem step_applied (s : Session) (st : Step) :
    (step s st).2.sent.filter Message.applies = (s.answered st).flatMap Answered.told := by
  have h : (step s st).1.world.applied = s.world.applied ++ (s.answered st).flatMap Answered.told := by
    rw [step_world, take_applied]
  rw [World.applied, step_sent, List.filter_append] at h
  exact List.append_cancel_left h

end Session

/-! ## The answers are those of the pipeline -/

/-- Asks for settings that are there: the fetch has ended with `outcome`, in the world `w`. -/
def World.settled (outcome : Resolution) (w : World) (_ : String) : Act World Resolution :=
  ExceptT.mk fun _ => (.ok outcome, w)

/-- A request for edits that asks for settings in the world `w` need not wait for them: its fetch has
ended, or no fetch can be sent. -/
inductive World.HasSettings (d : Snapshot) (w : World) : Resolution → World → Prop
  | ended {path : String} {n : Nat} {outcome : Resolution} {u v : World} :
      Pipeline.announce World.collaborators d w = (.ok path, u) →
      World.fetchSettings d.uri u = (.ok n, v) → v.cache.outcome? n = some outcome →
      HasSettings d w outcome v
  | refused {path : String} {f : Failure} {u v : World} :
      Pipeline.announce World.collaborators d w = (.ok path, u) →
      World.fetchSettings d.uri u = (.error (.failure f), v) → f.stage = .settings →
      HasSettings d w (.error (.failure f)) v

/-- A request for edits goes on in a step, with what its settings have come to, in a world: at once if
it need not wait, or when the turn comes of those who wait for its fetch. It then finds the world
that the tasks have left behind whose turn was before its own. -/
inductive Session.GoesOn (s : Session) (st : Step) (d : Snapshot) (request : FormatRequest)
    (label : Option String) : Resolution → World → Prop
  | atOnce {outcome : Resolution} {v : World} : s.requestOf st = some (.edits d request label) →
      World.HasSettings d s.world outcome v → GoesOn s st d request label outcome v
  | later {n i : Nat} {t : Task} {path : String} {outcome : Resolution} : st.core = .resume n →
      s.world.cache.outcome? n = some outcome → s.tasks[i]? = some t →
      t.state = .waiting n (.edits d path request label) →
      GoesOn s st d request label outcome
        (Session.resumeTasks n outcome s.world (s.tasks.take i)).1

/-- The edits are the answer of the pipeline to a request that goes on in the step. -/
def Answered.Right (e : Answered) (s : Session) (st : Step) : Prop :=
  ∃ outcome w, s.GoesOn st e.d e.request e.label outcome w ∧
    ∀ v, (Pipeline.provideEdits World.collaborators (World.settled outcome w) e.d e.request v).1 =
      .ok e.edits

/-- What is left to do of a request for edits is the pipeline with the settings that are there. -/
theorem Continuation.resume_provides {outcome : Resolution} {d : Snapshot} {path : String}
    (hpath : d.path = .ok path) (request : FormatRequest) (label : Option String) (w v : World) :
    ((Continuation.edits d path request label).resume outcome w).1 =
      (Pipeline.provideEdits World.collaborators (World.settled outcome w) d request v).1.map
        .edits := by
  have hformat : Pipeline.format World.collaborators (World.settled outcome w) d.text d request v =
      Pipeline.complete World.collaborators d.text d path request outcome w := by
    unfold Pipeline.format Pipeline.announce
    rw [hpath]
    rfl
  rw [resume_edits]
  unfold Pipeline.provideEdits
  rcases hc : Pipeline.complete World.collaborators d.text d path request outcome w with
    ⟨e | result, u⟩
  · rw [bind_error (hformat.trans hc)]
    rfl
  · rw [bind_ok (hformat.trans hc)]
    rfl

theorem Continuation.resume_eq_edits {outcome : Resolution} {d : Snapshot} {path : String}
    (hpath : d.path = .ok path) (request : FormatRequest) (label : Option String) {w : World}
    {es : List TextEdit} :
    ((Continuation.edits d path request label).resume outcome w).1 = .ok (.edits es) ↔
      ∀ v, (Pipeline.provideEdits World.collaborators (World.settled outcome w) d request v).1 =
        .ok es := by
  have h : ∀ v, ((Continuation.edits d path request label).resume outcome w).1 = .ok (.edits es) ↔
      (Pipeline.provideEdits World.collaborators (World.settled outcome w) d request v).1 =
        .ok es := fun v => by
    rw [resume_provides hpath request label w v]
    cases (Pipeline.provideEdits World.collaborators (World.settled outcome w) d request v).1 <;>
      simp [Except.map]
  exact ⟨fun hw v => (h v).1 hw, fun hv => (h w).2 (hv w)⟩

theorem Continuation.answered_some {rest : Continuation} {result : Except Fault Answer}
    {e : Answered} : rest.answered? result = some e ↔
      ∃ path, rest = .edits e.d path e.request e.label ∧ result = .ok (.edits e.edits) := by
  constructor
  · intro h
    unfold answered? at h
    split at h
    · cases h
      exact ⟨_, rfl, rfl⟩
    · cases h
  · rintro ⟨path, rfl, rfl⟩
    rfl

theorem Pipeline.path_of_announce {d : Snapshot} {w u : World} {path : String}
    (h : Pipeline.announce World.collaborators d w = (.ok path, u)) : d.path = .ok path := by
  unfold Pipeline.announce at h
  rw [bind_ok (rfl : Pipeline.info World.collaborators _ w = (.ok (), _))] at h
  exact congrArg Prod.fst h

theorem Request.announce_edits {d : Snapshot} {w u : World} {path : String}
    (h : Pipeline.announce World.collaborators d w = (.ok path, u)) (request : FormatRequest)
    (label : Option String) : (Request.edits d request label).announce w =
      (.ok (d.uri, .edits d path request label), u) := by
  unfold announce
  dsimp only
  rw [bind_ok h]
  rfl

/-- A request for edits that need not wait goes on at once. -/
theorem World.HasSettings.run {d : Snapshot} {w v : World} {outcome : Resolution}
    (h : World.HasSettings d w outcome v) (request : FormatRequest) (label : Option String) :
    ∃ path, d.path = .ok path ∧ (Request.edits d request label).run w =
      Progress.ends ((Continuation.edits d path request label).resume outcome v) := by
  cases h with
  | @ended path n outcome u v ha hf ho =>
    refine ⟨path, Pipeline.path_of_announce ha, ?_⟩
    unfold Request.run
    rw [bind_ok (Request.announce_edits ha request label)]
    dsimp only
    rw [bind_ok (show Act.recover .settings (World.fetchSettings d.uri) u = (.ok (.ok n), v) by
      rw [recover_apply, hf]; rfl)]
    dsimp only
    rw [bind_ok (rfl : (MonadState.get : Act World World) v = (.ok v, v)), ho]
    exact Progress.ends_apply _ v
  | @refused path f u v ha hf hstage =>
    refine ⟨path, Pipeline.path_of_announce ha, ?_⟩
    unfold Request.run
    rw [bind_ok (Request.announce_edits ha request label)]
    dsimp only
    rw [bind_ok (show Act.recover .settings (World.fetchSettings d.uri) u = (.ok (.error f), v) by
      rw [recover_apply, hf, settled_ok_error.2 ⟨rfl, hstage⟩])]
    exact Progress.ends_apply _ v

/-- Only such a request comes to its answer in its own step. -/
theorem Request.run_answered {r : Request} {w : World} {e : Answered}
    (h : r.answeredAt? (Session.standing (r.run w).1) = some e) :
    r = .edits e.d e.request e.label ∧ ∃ outcome v, World.HasSettings e.d w outcome v := by
  have ends : ∀ {uri rest u v} {outcome : Resolution}, r.announce w = (.ok (uri, rest), u) →
      r.answeredAt? (Session.standing (Progress.ends (rest.resume outcome v)).1) = some e →
        r = .edits e.d e.request e.label ∧ uri = e.d.uri ∧
          ∃ path, Pipeline.announce World.collaborators e.d w = (.ok path, u) := by
    intro uri rest u v outcome ha h
    rw [Session.standing_ends] at h
    have hannounced := announced_of_announce ha
    replace h : r.answered? (rest.resume outcome v).1 = some e := h
    rw [answered_announced hannounced] at h
    obtain ⟨path, rfl, -⟩ := Continuation.answered_some.1 h
    obtain ⟨hpath, rfl⟩ := announced_edits hannounced
    have hp : Pipeline.announce World.collaborators e.d w =
        (.ok path, (Pipeline.announce World.collaborators e.d w).2) := by
      unfold Pipeline.announce
      rw [hpath]
      rfl
    rw [announce_edits hp] at ha
    cases ha
    exact ⟨rfl, rfl, path, hp⟩
  generalize hp : r.run w = p at h
  have hran := r.ran w
  rw [hp] at hran
  cases hran with
  | unannounced _ => cases (r.answered_error _).symm.trans h
  | nameless _ _ _ => cases (r.answered_error _).symm.trans h
  | refused ha hf hstage =>
    obtain ⟨hr, rfl, path, hp⟩ := ends ha h
    exact ⟨hr, _, _, .refused hp hf hstage⟩
  | waits _ _ _ => cases h
  | resumes ha hf ho =>
    obtain ⟨hr, rfl, path, hp⟩ := ends ha h
    exact ⟨hr, _, _, .ended hp hf ho⟩

namespace Session

/-- Documents are open under their URIs, and the tasks that wait know where theirs lie. -/
structure Sound (s : Session) : Prop where
  documents : ∀ e ∈ s.documents, e.2.uri = e.1
  tasks : ∀ t ∈ s.tasks, ∀ n d path request label,
    t.state = .waiting n (.edits d path request label) → d.path = .ok path

theorem fresh_sound (files : Files) (home : String) (client : Client)
    (reply : List Command → Command → Reply) (config : ServerConfig) (logger : Logger)
    (limits : Limits) : (fresh files home client reply config logger limits).Sound :=
  ⟨fun _ he => absurd he List.not_mem_nil, fun _ ht => absurd ht List.not_mem_nil⟩

theorem step_sound (s : Session) (st : Step) (hs : s.Sound) : (step s st).1.Sound := by
  obtain ⟨new, hstate, hnew⟩ := step_state s st
  rw [hstate]
  refine ⟨fun e he => ?_, fun t ht n d path request label hwait => ?_⟩
  · exact (take_documents s st e he).elim (hs.documents e) id
  rcases List.mem_append.1 ht with ht | ht
  · obtain ⟨t₀, hmem, hbecomes⟩ := take_mem ht
    cases hbecomes with
    | goes _ _ _ _ => cases hwait
    | cancelled _ _ _ => cases hwait
    | stays _ => exact hs.tasks t hmem n d path request label hwait
  · cases hnew with
    | nothing _ => cases ht
    | tasks hts =>
      rcases List.mem_cons.1 ht with rfl | ht
      · obtain ⟨r, uri, _, hr⟩ := take_announced hwait
        exact (Request.announced_edits hr).1
      · rw [hts t ht] at hwait
        cases hwait

theorem run_sound {s : Session} (hs : s.Sound) (sts : List Step) : (run s sts).1.Sound :=
  run_invariant (Q := fun _ => True) (fun s st _ => step_sound s st) hs fun _ _ => trivial

/-- The request of a step comes to the answer of the pipeline if it need not wait. -/
theorem mem_ownAnswered (s : Session) (st : Step) (e : Answered) :
    s.ownAnswered? st = some e ↔ s.requestOf st = some (.edits e.d e.request e.label) ∧
      ∃ outcome v, World.HasSettings e.d s.world outcome v ∧ ∀ u, (Pipeline.provideEdits
        World.collaborators (World.settled outcome v) e.d e.request u).1 = .ok e.edits := by
  have hrun : ∀ {r}, s.requestOf st = some r →
      s.ownAnswered? st = r.answeredAt? (standing (r.run s.world).1) := fun {r} hr => by
    rw [ownAnswered?, hr, stands_eq, take_request hr, Session.request, onWorld_apply]
    rfl
  have provides : ∀ {outcome v}, World.HasSettings e.d s.world outcome v →
      s.requestOf st = some (.edits e.d e.request e.label) → (s.ownAnswered? st = some e ↔
        ∀ u, (Pipeline.provideEdits World.collaborators (World.settled outcome v) e.d e.request
          u).1 = .ok e.edits) := fun {outcome v} hsettings hr => by
    obtain ⟨path, hpath, hends⟩ := hsettings.run e.request e.label
    rw [hrun hr, hends, standing_ends, ← Continuation.resume_eq_edits hpath e.request e.label]
    generalize ((Continuation.edits e.d path e.request e.label).resume outcome v).1 = result
    have hannounced : (Request.edits e.d e.request e.label).announced =
        .ok (e.d.uri, .edits e.d path e.request e.label) := by
      rw [Request.announced, hpath]
      rfl
    rw [Request.answeredAt?, Request.answered_announced hannounced, Continuation.answered_some]
    constructor
    · rintro ⟨_, _, h⟩
      exact h
    · exact fun h => ⟨path, rfl, h⟩
  constructor
  · intro h
    obtain ⟨r, hr, -⟩ := Option.bind_eq_some_iff.1 h
    obtain ⟨rfl, outcome, v, hsettings⟩ := Request.run_answered ((hrun hr).symm.trans h)
    exact ⟨hr, outcome, v, hsettings, (provides hsettings hr).1 h⟩
  · rintro ⟨hr, outcome, v, hsettings, hprovides⟩
    exact (provides hsettings hr).2 hprovides

/-- A task goes on in the world that those before it have left behind. -/
theorem resumeTasks_getElem? (fetch : Nat) (outcome : Resolution) (ts : List Task) (w : World)
    (i : Nat) : (resumeTasks fetch outcome w ts).2[i]? = ts[i]?.map fun t =>
      (resumeTask fetch outcome (resumeTasks fetch outcome w (ts.take i)).1 t).2 := by
  induction ts generalizing w i with
  | nil => rfl
  | cons t ts ih =>
    rw [resumeTasks_cons]
    cases i with
    | zero => rfl
    | succ i => exact ih _ i

theorem resumeTask_answered {fetch : Nat} {outcome : Resolution} {t : Task} {w : World}
    {e : Answered} : t.answered? (resumeTask fetch outcome w t).2 = some e ↔ ∃ path,
      t.state = .waiting fetch (.edits e.d path e.request e.label) ∧
        ((Continuation.edits e.d path e.request e.label).resume outcome w).1 =
          .ok (.edits e.edits) := by
  obtain ⟨rest, hwait⟩ | hother := waits_or_not fetch t
  · rw [resumeTask_waiting outcome w hwait]
    unfold Task.answered?
    rw [hwait]
    dsimp only
    rw [Continuation.answered_some]
    constructor
    · rintro ⟨path, rfl, hresult⟩
      exact ⟨path, rfl, hresult⟩
    · rintro ⟨path, hstate, hresult⟩
      cases hstate
      exact ⟨path, rfl, hresult⟩
  · rw [resumeTask_other outcome w hother, answered_self]
    exact ⟨nofun, fun ⟨_, hwait, _⟩ => absurd hwait (hother _)⟩

/-- So the tasks whose turn comes come to the answers of the pipeline. -/
theorem mem_answered_later {s : Session} (hs : s.Sound) {st : Step} {n : Nat} {outcome : Resolution}
    (hcore : st.core = .resume n) (ho : s.world.cache.outcome? n = some outcome) (e : Answered) :
    e ∈ s.answered st ↔ ∃ i t path, s.tasks[i]? = some t ∧
      t.state = .waiting n (.edits e.d path e.request e.label) ∧ ∀ v, (Pipeline.provideEdits
        World.collaborators (World.settled outcome
          (resumeTasks n outcome s.world (s.tasks.take i)).1) e.d e.request v).1 = .ok e.edits := by
  rw [answered_resume hcore, take_resume hcore ho, List.mem_filterMap]
  constructor
  · rintro ⟨⟨t, t'⟩, hmem, hanswered⟩
    obtain ⟨i, hi⟩ := List.mem_iff_getElem?.1 hmem
    obtain ⟨ht, ht'⟩ := List.getElem?_zip_eq_some.1 hi
    dsimp only at ht ht' hanswered
    rw [resumeTasks_getElem?, ht] at ht'
    cases ht'
    obtain ⟨path, hwait, hresult⟩ := resumeTask_answered.1 hanswered
    have hpath := hs.tasks t (List.mem_of_getElem? ht) _ _ _ _ _ hwait
    exact ⟨i, t, path, ht, hwait, (Continuation.resume_eq_edits hpath _ _).1 hresult⟩
  · rintro ⟨i, t, path, ht, hwait, hprovides⟩
    have hpath := hs.tasks t (List.mem_of_getElem? ht) _ _ _ _ _ hwait
    have hresult := (Continuation.resume_eq_edits hpath e.request e.label).2 hprovides
    refine ⟨(t, _), List.mem_iff_getElem?.2 ⟨i, List.getElem?_zip_eq_some.2 ⟨ht, ?_⟩⟩,
      resumeTask_answered.2 ⟨path, hwait, hresult⟩⟩
    rw [resumeTasks_getElem?, ht]
    rfl

/-- The requests that come to their answer in a step are those that go on in it and that the pipeline
answers. -/
theorem mem_answered {s : Session} (hs : s.Sound) (st : Step) (e : Answered) :
    e ∈ s.answered st ↔ e.Right s st := by
  by_cases hresume : ∃ n, st.core = .resume n
  · obtain ⟨n, hcore⟩ := hresume
    cases ho : s.world.cache.outcome? n with
    | some outcome =>
      rw [mem_answered_later hs hcore ho]
      constructor
      · rintro ⟨i, t, path, ht, hwait, hprovides⟩
        exact ⟨outcome, _, .later hcore ho ht hwait, hprovides⟩
      · rintro ⟨outcome', w, hgoes, hprovides⟩
        cases hgoes with
        | atOnce hr _ =>
          rw [requestOf_resume hcore] at hr
          cases hr
        | @later m i t path _ hcore' ho' ht hwait =>
          rw [hcore] at hcore'
          cases hcore'
          rw [ho] at ho'
          cases ho'
          exact ⟨i, t, path, ht, hwait, hprovides⟩
    | none =>
      have hnone : s.answered st = [] := by
        rw [answered_resume hcore, hcore]
        show (s.tasks.zip (resume n s).2.tasks).filterMap _ = _
        rw [resume_apply, ho]
        exact answered_zip (List.forall₂_same.2 fun t _ => answered_self t)
      rw [hnone]
      refine ⟨fun h => absurd h List.not_mem_nil, ?_⟩
      rintro ⟨outcome, w, hgoes, -⟩
      cases hgoes with
      | atOnce hr _ =>
        rw [requestOf_resume hcore] at hr
        cases hr
      | later hcore' ho' _ _ =>
        rw [hcore] at hcore'
        cases hcore'
        rw [ho] at ho'
        cases ho'
  · rw [answered_own fun n h => hresume ⟨n, h⟩, Option.mem_toList, mem_ownAnswered]
    constructor
    · rintro ⟨hr, outcome, v, hsettings, hprovides⟩
      exact ⟨outcome, v, .atOnce hr hsettings, hprovides⟩
    · rintro ⟨outcome, w, hgoes, hprovides⟩
      cases hgoes with
      | atOnce hr hsettings => exact ⟨hr, outcome, w, hsettings, hprovides⟩
      | later hcore _ _ _ => exact absurd ⟨_, hcore⟩ hresume

/-! ## How a session answers -/

/-- How a session goes on to answer requests for edits, whatever the next step is. -/
structure AnswersEdits (s : Session) : Prop where
  /-- The command on an open document asks for edits of it, to be applied under the URI it names; an
  empty text names none. -/
  command : ∀ st arguments uri d, st.core = .forceFormat arguments → arguments.uri = .ok (.str uri) →
    uri ≠ "" → s.documents.lookup uri = some d →
    d.uri = uri ∧ s.requestOf st = some (.edits d { force := true } (some "Format Document (Forced)"))
  /-- A request for edits ends in its step, or waits in the task that the step leaves behind. -/
  waits : ∀ st d request label fetch rest, s.requestOf st = some (.edits d request label) →
    s.stands st = .waiting fetch rest → ∃ path, rest = .edits d path request label
  /-- A task that waits does so until its turn comes after its fetch has ended, or it is cancelled. -/
  tasks : ∀ st, List.Forall₂ (Becomes s st) s.tasks ((step s st).1.tasks.take s.tasks.length)
  /-- The client is told to apply what the requests say that come to their answer. -/
  told : ∀ st, (step s st).2.sent.filter Message.applies = (s.answered st).flatMap Answered.told
  /-- Those requests come to their answer that go on in the step and that the pipeline answers, each
  with what the pipeline answers. -/
  answers : ∀ st e, e ∈ s.answered st ↔ e.Right s st

theorem Sound.answersEdits {s : Session} (hs : s.Sound) : s.AnswersEdits where
  command st arguments uri d hcore huri hne hd := by
    refine ⟨?_, ?_⟩
    · obtain ⟨l₁, l₂, hl, _⟩ := List.lookup_eq_some_iff.1 hd
      exact hs.documents (uri, d) (hl ▸ List.mem_append_right l₁ List.mem_cons_self)
    · rw [requestOf, hcore]
      dsimp only
      rw [huri, show s.forcedRequest? (.ok (.str uri)) = (s.documents.lookup uri).map _ from
        if_neg hne, hd]
      rfl
  waits st d request label fetch rest hr hwait := by
    rw [stands_eq] at hwait
    obtain ⟨r, uri, hr', hannounced⟩ := take_announced hwait
    rw [hr] at hr'
    cases hr'
    dsimp only [Request.announced] at hannounced
    cases hp : d.path <;> rw [hp] at hannounced <;> cases hannounced
    exact ⟨_, rfl⟩
  tasks st := by
    obtain ⟨new, hstate, _⟩ := step_state s st
    rw [hstate, adding, (take_becomes s st).length_eq, List.take_left]
    exact take_becomes s st
  told := step_applied s
  answers := mem_answered hs

/-- A request for edits that is answered is answered right, whatever its collaborators do; and a
session answers its requests so, and tells its client to apply the answers to commands, all of them
and nothing else. -/
theorem formatting_answered :
    (∀ {σ ε : Type} (c : Collaborators σ ε) (fetch : String → Act σ (Except Fault Settings))
      (d : Snapshot) (request : FormatRequest) (s : σ) (edits : List TextEdit),
      (Pipeline.provideEdits c fetch d request s).1 = .ok edits →
      ((Pipeline.calls c fetch d request s).filterMap Call.formatted?).length ≤ 1 ∧
        Pipeline.Answers d (Pipeline.returned (Pipeline.calls c fetch d request s)) edits) ∧
    ∀ (files : Files) (home : String) (client : Client) (reply : List Command → Command → Reply)
      (config : ServerConfig) (logger : Logger) (limits : Limits) (before : List Step),
      (run (fresh files home client reply config logger limits) before).1.AnswersEdits := by
  constructor
  · intro σ ε c fetch d request s edits h
    exact Pipeline.provideEdits_answers fetch h
  · intro files home client reply config logger limits before
    exact (run_sound (fresh_sound files home client reply config logger limits) before).answersEdits

end Session

end FormatServer
