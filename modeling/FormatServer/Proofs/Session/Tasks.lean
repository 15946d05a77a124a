import FormatServer.Proofs.Session.Steps
import Mathlib.Data.List.Forall2

/-!
# What becomes of tasks

A task that waits for a fetch goes on after the fetch has ended (`resumeTasks_resumed`), or is
cancelled before (`cancel_state`); nothing else happens to it, and nothing at all to a task that has
ended.
-/

set_option autoImplicit false

namespace FormatServer

open Act

namespace Session

/-! ## Going on -/

/-- What becomes of a task after a fetch has ended: one that waits for it goes on, in a world in
`J`. -/
inductive Resumed (fetch : Nat) (outcome : Resolution) (J : World → Prop) : Task → Task → Prop
  | goes {t : Task} {rest : Continuation} {u : World} : t.state = .waiting fetch rest → J u →
      Resumed fetch outcome J t { t with state := .ended (rest.resume outcome u).1 }
  | stays {t : Task} : (∀ rest, t.state ≠ .waiting fetch rest) → Resumed fetch outcome J t t

theorem resumeTask_waiting {fetch : Nat} {t : Task} {rest : Continuation} (outcome : Resolution)
    (w : World) (h : t.state = .waiting fetch rest) :
    resumeTask fetch outcome w t =
      ((rest.resume outcome w).2, { t with state := .ended (rest.resume outcome w).1 }) := by
  unfold resumeTask
  rw [h]
  dsimp only
  rw [if_pos rfl]
  rfl

theorem resumeTask_other {fetch : Nat} {t : Task} (outcome : Resolution) (w : World)
    (h : ∀ rest, t.state ≠ .waiting fetch rest) : resumeTask fetch outcome w t = (w, t) := by
  unfold resumeTask
  split
  · next n rest ht =>
    rw [if_neg]
    rintro rfl
    exact h rest ht
  · rfl

theorem resumeTasks_cons (fetch : Nat) (outcome : Resolution) (w : World) (t : Task) (ts : List Task) :
    resumeTasks fetch outcome w (t :: ts) =
      ((resumeTasks fetch outcome (resumeTask fetch outcome w t).1 ts).1,
        (resumeTask fetch outcome w t).2 ::
          (resumeTasks fetch outcome (resumeTask fetch outcome w t).1 ts).2) := rfl

theorem waits_or_not (fetch : Nat) (t : Task) :
    (∃ rest, t.state = .waiting fetch rest) ∨ ∀ rest, t.state ≠ .waiting fetch rest := by
  by_cases h : ∃ rest, t.state = .waiting fetch rest
  · exact .inl h
  · exact .inr fun rest hrest => h ⟨rest, hrest⟩

section
variable {R : World → World → Prop} {J : World → Prop} {fetch : Nat} {outcome : Resolution}
variable (hR : Moving R) (hJ : ∀ {u v}, R u v → J u → J v)
  (hresume : ∀ rest u, J u → R u (Continuation.resume outcome rest u).2)
include hR hJ hresume

/-- Every task that goes on finds a world in `J`, and moves it along `R`. -/
theorem resumeTasks_resumed (ts : List Task) {w : World} (hw : J w) :
    R w (resumeTasks fetch outcome w ts).1 ∧
      List.Forall₂ (Resumed fetch outcome J) ts (resumeTasks fetch outcome w ts).2 := by
  induction ts generalizing w with
  | nil => exact ⟨hR.refl w, .nil⟩
  | cons t ts ih =>
    rw [resumeTasks_cons]
    obtain ⟨rest, ht⟩ | ht := waits_or_not fetch t
    · rw [resumeTask_waiting outcome w ht]
      have hrest := hresume rest w hw
      obtain ⟨hmoves, htasks⟩ := ih (hJ hrest hw)
      exact ⟨hR.trans hrest hmoves, .cons (.goes ht hw) htasks⟩
    · rw [resumeTask_other outcome w ht]
      obtain ⟨hmoves, htasks⟩ := ih hw
      exact ⟨hmoves, .cons (.stays ht) htasks⟩

end

theorem resume_apply (s : Session) (fetch : Nat) :
    resume fetch s = (.ok (.ended .nothing),
      match s.world.cache.outcome? fetch with
      | some outcome => { s with
          world := (resumeTasks fetch outcome s.world s.tasks).1
          tasks := (resumeTasks fetch outcome s.world s.tasks).2 }
      | none => s) := by
  unfold resume
  rw [bind_ok (rfl : (get : Act Session Session) s = (.ok s, s))]
  cases s.world.cache.outcome? fetch <;> rfl

/-- The tasks after those have gone on that wait for a fetch that has ended. -/
theorem take_resume {s : Session} {st : Step} {fetch : Nat} {outcome : Resolution}
    (hst : st.core = .resume fetch) (ho : s.world.cache.outcome? fetch = some outcome) :
    (take st.core s).2.tasks = (resumeTasks fetch outcome s.world s.tasks).2 := by
  rw [hst]
  show (resume fetch s).2.tasks = _
  rw [resume_apply, ho]

/-! ## Cancelling -/

/-- What becomes of a task when one is cancelled: it goes on to wait or not, or it is the one. -/
inductive Cancelled (id : String) : Task → Task → Prop
  | cancelled {t : Task} {fetch : Nat} {rest : Continuation} : t.id = some id →
      t.state = .waiting fetch rest → Cancelled id t { t with state := .cancelled }
  | stays (t : Task) : Cancelled id t t

theorem cancelIn_cancelled (id : String) (ts : List Task) :
    List.Forall₂ (Cancelled id) ts (cancelIn id ts).1 := by
  induction ts with
  | nil => exact .nil
  | cons t ts ih =>
    unfold cancelIn
    split
    · next hid =>
      cases ht : t.state with
      | waiting n rest => exact .cons (.cancelled hid ht) (List.forall₂_same.2 fun t _ => .stays t)
      | _ => exact List.forall₂_same.2 fun t _ => .stays t
    · exact .cons (.stays t) ih

/-- A step that cancels a task leaves the world alone, and all other tasks. -/
theorem cancel_state (id : String) (s : Session) :
    ∃ p ts, cancel id s = (p, { s with tasks := ts }) ∧ (∃ result, standing p = .ended result) ∧
      List.Forall₂ (Cancelled id) s.tasks ts := by
  have hs : cancel id s = (if (s.task? id).isNone then (.error .unknownTask, s)
      else (.ok (.ended (.wasWaiting (cancelIn id s.tasks.reverse).2)),
        { s with tasks := (cancelIn id s.tasks.reverse).1.reverse })) := by
    unfold cancel
    rw [bind_ok (rfl : (get : Act Session Session) s = (.ok s, s))]
    cases (s.task? id).isNone <;> rfl
  rw [hs]
  split
  · exact ⟨_, s.tasks, rfl, ⟨_, rfl⟩, List.forall₂_same.2 fun t _ => .stays t⟩
  · refine ⟨_, _, rfl, ⟨_, rfl⟩, ?_⟩
    have h := List.rel_reverse (cancelIn_cancelled id s.tasks.reverse)
    rwa [List.reverse_reverse] at h

/-! ## Steps -/

/-- What becomes of a task in a step. One that goes on does so with the outcome of its fetch, in a
world like that before the step, but for what tasks before it have done. -/
inductive Becomes (s : Session) (st : Step) : Task → Task → Prop
  | goes {t : Task} {fetch : Nat} {rest : Continuation} {outcome : Resolution} {u : World} :
      st.core = .resume fetch → t.state = .waiting fetch rest →
      s.world.cache.outcome? fetch = some outcome →
      World.Frame (fun _ => True) (fun _ => True) s.world u →
      Becomes s st t { t with state := .ended (rest.resume outcome u).1 }
  | cancelled {t : Task} {id : String} {fetch : Nat} {rest : Continuation} :
      st.core = .cancel id → t.id = some id → t.state = .waiting fetch rest →
      Becomes s st t { t with state := .cancelled }
  | stays {t : Task} : (∀ fetch rest, st.core = .resume fetch → t.state = .waiting fetch rest →
      s.world.cache.outcome? fetch = none) → Becomes s st t t

/-- When the turn of the tasks comes that wait for a fetch, they go on. -/
theorem resume_becomes {s : Session} {st : Step} {fetch : Nat} (hst : st.core = .resume fetch) :
    List.Forall₂ (Becomes s st) s.tasks (resume fetch s).2.tasks ∧
      World.Frame (fun _ => True) (fun _ => True) s.world (resume fetch s).2.world := by
  have hR := World.Frame.moving (M := fun _ => True) (L := fun _ => True)
  rw [resume_apply]
  cases ho : s.world.cache.outcome? fetch with
  | none =>
    refine ⟨List.forall₂_same.2 fun t _ => .stays fun fetch' rest h _ => ?_, hR.refl _⟩
    rw [hst] at h
    cases h
    exact ho
  | some outcome =>
    have hresume : ∀ (rest : Continuation) u,
        World.Frame (fun _ => True) (fun _ => True) u (rest.resume outcome u).2 := fun rest u =>
      rest.resume_frame (fun settings _ => World.formats (fun _ => trivial) settings) trivial
        fun _ _ => trivial
    obtain ⟨hmoves, htasks⟩ : World.Frame (fun _ => True) (fun _ => True) s.world
        (resumeTasks fetch outcome s.world s.tasks).1 ∧ List.Forall₂ _ _ _ :=
      resumeTasks_resumed hR (fun h h' => hR.trans h' h) (fun rest u _ => hresume rest u) s.tasks
        (hR.refl s.world)
    refine ⟨htasks.imp fun t t' h => ?_, hmoves⟩
    cases h with
    | goes ht hu => exact .goes hst ht ho hu
    | stays ht =>
      refine .stays fun fetch' rest h hrest => ?_
      rw [hst] at h
      cases h
      exact absurd hrest (ht rest)

/-- A step does to the tasks that are there what `Becomes` says. -/
theorem take_becomes (s : Session) (st : Step) :
    List.Forall₂ (Becomes s st) s.tasks (take st.core s).2.tasks := by
  by_cases hresume : ∃ fetch, st.core = .resume fetch
  · obtain ⟨fetch, hst⟩ := hresume
    rw [hst]
    exact (resume_becomes hst).1
  have same : (take st.core s).2.tasks = s.tasks →
      List.Forall₂ (Becomes s st) s.tasks (take st.core s).2.tasks := fun h => by
    rw [h]
    exact List.forall₂_same.2 fun t _ => .stays fun fetch _ h' _ => absurd ⟨fetch, h'⟩ hresume
  obtain h | ⟨id, hst⟩ | ⟨r, _, htake⟩ | ⟨_, h⟩ := take_cases s st
  · exact absurd h hresume
  · rw [hst]
    obtain ⟨p, ts, hcancel, _, hts⟩ := cancel_state id s
    show List.Forall₂ (Becomes s st) s.tasks (cancel id s).2.tasks
    rw [hcancel]
    refine hts.imp fun t t' h => ?_
    cases h with
    | cancelled hid ht => exact .cancelled hst hid ht
    | stays => exact .stays fun fetch _ h' _ => absurd ⟨fetch, h'⟩ hresume
  · refine same ?_
    rw [htake]
    show (onWorld r.run s).2.tasks = _
    rw [onWorld_apply]
  · exact same h.tasks

theorem take_mem {s : Session} {st : Step} {t' : Task} (h : t' ∈ (take st.core s).2.tasks) :
    ∃ t ∈ s.tasks, Becomes s st t t' := by
  obtain ⟨i, hi, rfl⟩ := List.getElem_of_mem h
  have hold := take_becomes s st
  have hi' : i < s.tasks.length := by rw [hold.length_eq]; exact hi
  exact ⟨s.tasks[i], List.getElem_mem hi', hold.get hi' hi⟩

/-- Only a request waits. -/
theorem take_waiting {s : Session} {st : Step} {fetch : Nat} {rest : Continuation}
    (h : standing (take st.core s).1 = .waiting fetch rest) :
    ∃ r, s.requestOf st = some r ∧ take st.core s = request r s := by
  obtain ⟨fetch', hst⟩ | ⟨id, hst⟩ | hr | ⟨_, haside⟩ := take_cases s st
  · rw [hst] at h
    replace h : standing (resume fetch' s).1 = _ := h
    rw [resume_apply] at h
    cases h
  · rw [hst] at h
    obtain ⟨p, ts, hcancel, ⟨result, hp⟩, _⟩ := cancel_state id s
    replace h : standing (cancel id s).1 = _ := h
    rw [hcancel, hp] at h
    cases h
  · exact hr
  · obtain ⟨result, hp⟩ := haside.ends
    rw [hp] at h
    cases h

/-- A document is open already, or the step opens it under its URI. -/
theorem take_documents (s : Session) (st : Step) :
    ∀ e ∈ (take st.core s).2.documents, e ∈ s.documents ∨ e.2.uri = e.1 := by
  obtain ⟨fetch, hst⟩ | ⟨id, hst⟩ | ⟨r, _, htake⟩ | ⟨_, h⟩ := take_cases s st
  · rw [hst]
    show ∀ e ∈ (resume fetch s).2.documents, _
    rw [resume_apply]
    cases s.world.cache.outcome? fetch <;> exact fun e he => .inl he
  · rw [hst]
    obtain ⟨p, ts, hcancel, _⟩ := cancel_state id s
    show ∀ e ∈ (cancel id s).2.documents, _
    rw [hcancel]
    exact fun e he => .inl he
  · rw [htake]
    show ∀ e ∈ (onWorld r.run s).2.documents, _
    rw [onWorld_apply]
    exact fun e he => .inl he
  · exact h.documents

theorem take_grows (s : Session) (st : Step) : World.Grows s.world (take st.core s).2.world := by
  obtain ⟨fetch, hst⟩ | ⟨id, hst⟩ | ⟨r, _, htake⟩ | ⟨_, h⟩ := take_cases s st
  · rw [hst]
    exact (resume_becomes (s := s) (rfl : (Step.resume fetch).core = .resume fetch)).2.grows
  · rw [hst]
    obtain ⟨p, ts, hcancel, _⟩ := cancel_state id s
    show World.Grows s.world (cancel id s).2.world
    rw [hcancel]
    exact World.Grows.moving.refl _
  · rw [htake]
    show World.Grows s.world (onWorld r.run s).2.world
    rw [onWorld_apply]
    exact r.run_grows s.world
  · exact ⟨h.sent.isPrefix, h.launches.isPrefix⟩

/-- What a step reports as sent is what it adds to the journal. -/
theorem step_sent (s : Session) (st : Step) :
    (step s st).1.world.journal.sent = s.world.journal.sent ++ (step s st).2.sent := by
  show _ = s.world.journal.sent ++ (step s st).1.world.journal.sent.drop s.world.journal.sent.length
  rw [step_world]
  obtain ⟨ms, h⟩ := (take_grows s st).sent
  rw [← h, List.drop_left]

/-- What a step reports as started is what it adds to the journal. -/
theorem step_launches (s : Session) (st : Step) :
    (step s st).1.world.journal.launches = s.world.journal.launches ++ (step s st).2.launches := by
  show _ = s.world.journal.launches ++
    (step s st).1.world.journal.launches.drop s.world.journal.launches.length
  rw [step_world]
  obtain ⟨ls, h⟩ := (take_grows s st).launches
  rw [← h, List.drop_left]

/-! ## How a request stands -/

/-- How the request of a step stands when the step is over: as the first task that the step has left
behind, or else as the step has ended. -/
def stands (s : Session) (st : Step) : TaskState :=
  (((step s st).1.tasks[s.tasks.length]?).map Task.state).getD (.ended (step s st).2.result)

theorem stands_eq (s : Session) (st : Step) : s.stands st = standing (take st.core s).1 := by
  obtain ⟨new, hstate, hnew⟩ := step_state s st
  have hold := (take_becomes s st).length_eq
  unfold stands
  rw [hstate, adding, List.getElem?_append_right (Nat.le_of_eq hold.symm), hold, Nat.sub_self]
  cases hnew with
  | nothing h => exact h.symm
  | tasks _ => rfl

/-- A request that waits does so in the first task that the step has left behind. -/
theorem stands_waiting {s : Session} {st : Step} {fetch : Nat} {rest : Continuation}
    (h : s.stands st = .waiting fetch rest) :
    ∃ t, (step s st).1.tasks[s.tasks.length]? = some t ∧ t.state = .waiting fetch rest := by
  unfold stands at h
  cases ht : (step s st).1.tasks[s.tasks.length]? with
  | none => rw [ht] at h; cases h
  | some t => rw [ht] at h; exact ⟨t, rfl, h⟩

theorem requestOf_resume {s : Session} {st : Step} {fetch : Nat} (h : st.core = .resume fetch) :
    s.requestOf st = none := by
  rw [requestOf, h]

theorem requestOf_cancel {s : Session} {st : Step} {id : String} (h : st.core = .cancel id) :
    s.requestOf st = none := by
  rw [requestOf, h]

theorem requestOf_clears {s : Session} {st : Step} (h : st.clears = true) : s.requestOf st = none := by
  rw [requestOf, Step.clears_iff.1 h]

/-- A step that makes a request sets nothing. -/
theorem request_sets {s : Session} {st : Step} {r : Request} (h : s.requestOf st = some r) :
    st.core.sets s.world = s.world := by
  rw [requestOf] at h
  cases hcore : st.core with
  | connect _ _ _ | trust _ | changeFolders _ _ | setFolders _ | client _ | processes _ | write _ _
  | remove _ | shutdown | answer _ _ | evict _ =>
    rw [hcore] at h
    cases h
  | _ => rfl

theorem take_request {s : Session} {st : Step} {r : Request} (h : s.requestOf st = some r) :
    take st.core s = request r s := by
  obtain ⟨fetch, hcore⟩ | ⟨id, hcore⟩ | ⟨r', hr, htake⟩ | ⟨hr, _⟩ := take_cases s st
  · rw [requestOf_resume hcore] at h
    cases h
  · rw [requestOf_cancel hcore] at h
    cases h
  · rw [hr] at h
    cases h
    exact htake
  · rw [hr] at h
    cases h

/-- What is left to do of a request that waits is what it has announced. -/
theorem take_announced {s : Session} {st : Step} {fetch : Nat} {rest : Continuation}
    (h : standing (take st.core s).1 = .waiting fetch rest) :
    ∃ r uri, s.requestOf st = some r ∧ r.announced = .ok (uri, rest) := by
  obtain ⟨r, hr, htake⟩ := take_waiting h
  rw [htake] at h
  replace h : standing (onWorld r.run s).1 = _ := h
  rw [onWorld_apply] at h
  dsimp only at h
  generalize hp : r.run s.world = p at h
  have hran := r.ran s.world
  rw [hp] at hran
  cases hran with
  | unannounced _ => cases h
  | nameless _ _ _ => cases h
  | refused _ _ _ => rw [standing_ends] at h; cases h
  | waits ha _ _ => cases h; exact ⟨r, _, hr, Request.announced_of_announce ha⟩
  | resumes _ _ _ => rw [standing_ends] at h; cases h

end Session

end FormatServer
