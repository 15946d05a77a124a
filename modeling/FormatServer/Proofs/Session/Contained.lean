import FormatServer.Proofs.Session.Answered
import FormatServer.Proofs.Session.Shared
import FormatServer.Proofs.Session.Untrusted
import FormatServer.Proofs.World.Contained

/-!
# Errors that a session contains

As long as every step says what is orderly (`Step.Orderly`) the world stays orderly
(`step_orderly`). So a request for edits goes on in an orderly world, be it in its own step
(`request_settles`) or in a later one in which its turn comes (`turn_settles`), and ends with its edits
or in a fault that escapes from that world. Whatever the other steps are, it has its edits, still
waits, has been cancelled, or has ended in such a fault (`edits_contained`).
-/

set_option autoImplicit false

namespace FormatServer

open Act

/-! ## Orderly steps -/

/-- What the step says of the surroundings of the server is orderly. -/
def Step.Orderly (limits : Limits) (st : Step) : Prop :=
  match st.core with
  | .connect options folders _ =>
    (∀ v, options.get? "bundledPrettierPath" = some v → v.Textual) ∧
      ∀ f ∈ folders, Uri.Parses f.uri
  | .changeFolders added _ => ∀ f ∈ added, Uri.Parses f.uri
  | .setFolders folders => ∀ f ∈ folders, Uri.Parses f.uri
  | .client c => c.Orderly
  | .processes reply => ∀ started command, Reply.Orderly limits command (reply started command)
  | .answer _ a => SettingsCache.OrderlyAnswer a
  | _ => True

theorem ServerConfig.withOptions_orderly {c : ServerConfig} (hc : c.bundledPrettierPath.Textual)
    {options : Json}
    (h : ∀ v, options.get? "bundledPrettierPath" = some v → v.Textual) :
    (c.withOptions options).bundledPrettierPath.Textual := by
  cases options with
  | obj fields =>
    show (overridden fields "bundledPrettierPath" c.bundledPrettierPath).Textual
    unfold overridden
    cases hv : (Fields.get? fields "bundledPrettierPath").bind Json.ifTruthy with
    | none => exact hc
    | some v =>
      obtain ⟨u, hu, huv⟩ := Option.bind_eq_some_iff.1 hv
      unfold Json.ifTruthy at huv
      split at huv <;> cases huv
      exact h v hu
  | _ => exact hc

theorem Step.sets_limits (st : Step) (w : World) : (st.sets w).limits = w.limits := by
  cases st <;> rfl

theorem Step.sets_orderly {st : Step} {w : World} (hst : st.Orderly w.limits) (hw : w.Orderly) :
    (st.core.sets w).Orderly := by
  unfold Orderly at hst
  unfold sets
  generalize st.core = c at hst
  cases c with
  | connect options folders configuration =>
    obtain ⟨hoptions, hfolders⟩ := hst
    exact { hw with
      bundled := ServerConfig.withOptions_orderly hw.bundled hoptions
      folders := hfolders }
  | changeFolders added removed =>
    refine { hw with folders := fun f hf => ?_ }
    rcases List.mem_append.1 hf with hf | hf
    · exact hw.folders f (List.mem_filter.1 hf).1
    · exact hst f (List.mem_filter.1 hf).1
  | setFolders folders => exact { hw with folders := hst }
  | client c => exact { hw with client := hst }
  | processes reply => exact { hw with replies := hst }
  | shutdown => exact { hw with cache := hw.cache.clear }
  | answer n a =>
    exact { hw with
      cache := hw.cache.receive n fun uri => SettingsCache.resolve_orderly hst uri _ }
  | evict n => exact { hw with cache := hw.cache.evict n }
  | write path node => exact { hw with }
  | remove path => exact { hw with }
  | trust params => exact { hw with }
  | _ => exact hw

/-! ## Requests for edits -/

theorem World.fetching_orderly {w : World} (hw : w.Orderly) (key uri : String) :
    (w.fetching key uri).Orderly := by
  have hsend := hw.cache.send key uri
  refine hw.ofGiven rfl ?_
  unfold fetching
  dsimp only
  split
  · exact hsend
  · next a ha =>
    refine (hsend.receive _ fun uri => ?_).evict _
    exact SettingsCache.resolve_orderly (hw.client _ _ a ha) uri _

theorem Uri.Parses.path {d : Snapshot} (h : Uri.Parses d.uri) : ∃ path, d.path = .ok path := by
  obtain ⟨u, hu⟩ := h
  unfold Snapshot.path toPath
  rw [hu]
  split <;> exact ⟨_, rfl⟩

theorem Uri.Parses.key {uri : String} (h : Uri.Parses uri) :
    ∃ key, World.settingsKey uri = .ok key := by
  obtain ⟨u, hu⟩ := h
  unfold World.settingsKey toPath
  rw [hu]
  split <;> exact ⟨_, rfl⟩

theorem World.fetchSettings_orderly (uri : String) {w : World} (hw : w.Orderly) :
    (fetchSettings uri w).2.Orderly :=
  fetchSettings_moves (R := fun w w' => w.Orderly → w'.Orderly) (fun _ => id) uri
    (fun _ key hw => fetching_orderly hw key uri) w hw

/-- It needs settings, since its URI has a key. -/
theorem Request.need_edits {d : Snapshot} (hd : Uri.Parses d.uri) (request : FormatRequest)
    (label : Option String) : ∃ need, (Request.edits d request label).need? = some need := by
  obtain ⟨path, hpath⟩ := hd.path
  obtain ⟨key, hkey⟩ := hd.key
  refine ⟨⟨key, d.uri, .edits d path request label⟩, ?_⟩
  rw [need?, announced, hpath]
  dsimp only [Except.map]
  rw [hkey]

/-- What a request for edits has that need not wait is orderly, and so is the world in which it goes
on. -/
theorem World.HasSettings.orderly {d : Snapshot} {w v : World} {outcome : Resolution}
    (h : World.HasSettings d w outcome v) (hw : w.Orderly) :
    v.Orderly ∧ SettingsCache.OrderlyOutcome outcome := by
  have announced : ∀ {path u}, Pipeline.announce World.collaborators d w = (.ok path, u) →
      u.Orderly := fun {path u} ha => by
    have hframe := (Request.edits d {} none).announce_frame (M := fun _ => True) (L := fun _ => True) w
    rw [Request.announce_edits ha] at hframe
    exact hframe.orderly hw
  cases h with
  | @ended path n outcome u v ha hf ho =>
    have hv : v.Orderly := by
      have hfetched := World.fetchSettings_orderly d.uri (announced ha)
      rwa [hf] at hfetched
    exact ⟨hv, hv.cache.outcome ho⟩
  | @refused path f u v ha hf hstage =>
    have hv : v.Orderly := by
      have hfetched := World.fetchSettings_orderly d.uri (announced ha)
      rwa [hf] at hfetched
    exact ⟨hv, .error ⟨f, rfl, hstage⟩⟩

/-- A request for edits waits, or need not. -/
theorem Request.run_edits {d : Snapshot} (hd : Uri.Parses d.uri) (request : FormatRequest)
    (label : Option String) (w : World) :
    (∃ n path, d.path = .ok path ∧ ((Request.edits d request label).run w).1 =
      .ok (.waiting n (.edits d path request label))) ∨
    ∃ outcome v, World.HasSettings d w outcome v := by
  obtain ⟨path, hpath⟩ := hd.path
  obtain ⟨key, hkey⟩ := hd.key
  have ha : Pipeline.announce World.collaborators d w =
      (.ok path, (Pipeline.announce World.collaborators d w).2) := by
    unfold Pipeline.announce
    rw [hpath]
    rfl
  have hannounce := Request.announce_edits ha request label
  have hran := (Request.edits d request label).ran w
  generalize (Request.edits d request label).run w = p at hran
  cases hran with
  | unannounced h =>
    rw [hannounce] at h
    cases h
  | nameless h hf hs =>
    rw [hannounce] at h
    cases h
    have hfetched := World.fetched d.uri (Pipeline.announce World.collaborators d w).2
    rw [hf] at hfetched
    cases hfetched with
    | nameless hnone => rw [hkey] at hnone; cases hnone
    | refused _ _ _ => cases (settled_ok_error.2 ⟨rfl, rfl⟩).symm.trans hs
  | refused h hf hstage =>
    rw [hannounce] at h
    cases h
    exact .inr ⟨_, _, .refused ha hf hstage⟩
  | waits h hf ho =>
    rw [hannounce] at h
    cases h
    exact .inl ⟨_, path, hpath, rfl⟩
  | resumes h hf ho =>
    rw [hannounce] at h
    cases h
    exact .inr ⟨_, _, .ended ha hf ho⟩

namespace Session

/-! ## The world stays orderly -/

theorem request_orderly (r : Request) {w : World} (hw : w.Orderly) : (r.run w).2.Orderly := by
  have hR : Moving fun w w' : World => w.Orderly → w'.Orderly :=
    ⟨fun _ => id, fun h h' hw => h' (h hw)⟩
  have hannounce := r.announce_frame (M := fun _ => True) (L := fun _ => True) w
  refine r.run_moves hR hannounce.orderly (fun uri w hw => ?_) (fun rest outcome v _ _ => ?_) hw
  · exact World.fetchSettings_orderly uri hw
  · exact (rest.resume_quiet outcome v).orderly

theorem request_limits (r : Request) (w : World) : (r.run w).2.limits = w.limits := by
  have hR : Moving fun w w' : World => w'.limits = w.limits :=
    ⟨fun _ => rfl, fun h h' => h'.trans h⟩
  have hannounce := r.announce_frame (M := fun _ => True) (L := fun _ => True) w
  refine r.run_moves hR hannounce.limits (fun uri => ?_) fun rest outcome v _ _ => ?_
  · exact World.fetchSettings_moves hR.refl uri fun _ _ => rfl
  · exact (rest.resume_quiet outcome v).limits

/-- The world stays orderly, with the same limits. -/
theorem step_orderly {s : Session} {st : Step} (hst : st.Orderly s.world.limits)
    (hs : s.world.Orderly) :
    (step s st).1.world.Orderly ∧ (step s st).1.world.limits = s.world.limits := by
  rw [step_world]
  obtain ⟨fetch, hcore⟩ | ⟨id, hcore⟩ | ⟨r, _, htake⟩ | ⟨_, haside⟩ := take_cases s st
  · have hframe := resume_quiet s fetch
    rw [hcore]
    exact ⟨hframe.orderly hs, hframe.limits⟩
  · obtain ⟨p, ts, hcancel, _⟩ := cancel_state id s
    have htake : take st.core s = (p, { s with tasks := ts }) := by rw [hcore]; exact hcancel
    rw [htake]
    exact ⟨hs, rfl⟩
  · rw [htake]
    exact ⟨request_orderly r hs, request_limits r s.world⟩
  · have horderly := Step.sets_orderly hst hs
    refine ⟨horderly.ofGiven haside.given ?_, ?_⟩
    · rw [haside.cache]
      exact horderly.cache
    · exact (congrArg (·.limits) haside.given).trans (st.core.sets_limits s.world)

theorem run_orderly {s : Session} (hs : s.world.Orderly) {sts : List Step}
    (hsts : ∀ st ∈ sts, st.Orderly s.world.limits) :
    (run s sts).1.world.Orderly ∧ (run s sts).1.world.limits = s.world.limits := by
  refine run_invariant (P := fun s' => s'.world.Orderly ∧ s'.world.limits = s.world.limits)
    (Q := Step.Orderly s.world.limits) ?_ ⟨hs, rfl⟩ hsts
  rintro s' st hst ⟨hs', hlimits⟩
  obtain ⟨horderly, hsame⟩ := step_orderly (hlimits.symm ▸ hst) hs'
  exact ⟨horderly, hsame.trans hlimits⟩

/-! ## Requests for edits settle -/

/-- A request for edits goes on in a step and ends in a fault that escapes from the world in which it
goes on. -/
def Escapes (d : Snapshot) (request : FormatRequest) (label : Option String) (e : Fault) (s : Session)
    (st : Step) : Prop :=
  ∃ outcome w, s.GoesOn st d request label outcome w ∧ w.Escapes d request outcome e

/-- How a request for edits comes to stand when it goes on in a step. -/
inductive Settles (d : Snapshot) (request : FormatRequest) (label : Option String) (s : Session)
    (st : Step) : TaskState → Prop
  | edits (es : List TextEdit) : Settles d request label s st (.ended (.ok (.edits es)))
  | escapes {e : Fault} : Escapes d request label e s st →
      Settles d request label s st (.ended (.error e))

variable {s : Session} {st : Step} {d : Snapshot} {request : FormatRequest} {label : Option String}

theorem GoesOn.settles {outcome : Resolution} {w : World}
    (h : s.GoesOn st d request label outcome w) (hw : w.Orderly)
    (ho : SettingsCache.OrderlyOutcome outcome) {path path' : String} (hpath : d.path = .ok path') :
    Settles d request label s st
      (.ended ((Continuation.edits d path request label).resume outcome w).1) := by
  obtain ⟨_, hend⟩ := Continuation.resume_returns hpath ho path request label w ⟨hw, rfl⟩
  generalize ((Continuation.edits d path request label).resume outcome w).1 = result at hend
  cases hend with
  | ok h =>
    obtain ⟨es, rfl⟩ := h
    exact .edits es
  | error he => exact .escapes ⟨outcome, w, h, he⟩

/-- In its own step a request waits, or goes on at once. -/
theorem request_settles (hs : s.world.Orderly) (hr : s.requestOf st = some (.edits d request label))
    (hd : Uri.Parses d.uri) :
    (∃ n path, d.path = .ok path ∧ s.stands st = .waiting n (.edits d path request label)) ∨
      Settles d request label s st (s.stands st) := by
  have hstands : s.stands st = standing ((Request.edits d request label).run s.world).1 := by
    rw [stands_eq, take_request hr, Session.request, onWorld_apply]
  rw [hstands]
  obtain ⟨n, path, hpath, hwaits⟩ | ⟨outcome, v, hsettings⟩ :=
    Request.run_edits hd request label s.world
  · exact .inl ⟨n, path, hpath, by rw [hwaits]; rfl⟩
  · obtain ⟨hv, ho⟩ := hsettings.orderly hs
    obtain ⟨path, hpath, hrun⟩ := hsettings.run request label
    rw [hrun, standing_ends]
    exact .inr ((GoesOn.atOnce hr hsettings).settles hv ho hpath)

/-- A task that does not wait stays as it is. -/
theorem run_settled {i : Nat} {t : Task} (ht : s.tasks[i]? = some t)
    (hsettled : ∀ n rest, t.state ≠ .waiting n rest) (sts : List Step) :
    (run s sts).1.tasks[i]? = some t := by
  induction sts generalizing s with
  | nil => exact ht
  | cons st sts ih =>
    obtain ⟨t', ht', hbecomes⟩ := step_task ht st
    obtain rfl := hbecomes.settled hsettled
    exact ih ht'

/-- When its turn comes after its fetch has ended, a task goes on. -/
theorem turn_state {n i : Nat} {outcome : Resolution} {t : Task} {rest : Continuation}
    (hcore : st.core = .resume n) (ho : s.world.cache.outcome? n = some outcome)
    (ht : s.tasks[i]? = some t) (hwait : t.state = .waiting n rest) :
    ((step s st).1.tasks[i]?).map Task.state = some (.ended
      (rest.resume outcome (resumeTasks n outcome s.world (s.tasks.take i)).1).1) := by
  obtain ⟨new, hstate, _⟩ := step_state s st
  have hgoes := resumeTasks_getElem? n outcome s.tasks s.world i
  rw [ht, Option.map_some, resumeTask_waiting outcome _ hwait] at hgoes
  have hlt := (List.getElem?_eq_some_iff.1 hgoes).1
  rw [hstate, adding, take_resume hcore ho, List.getElem?_append_left hlt, hgoes]
  rfl

/-- So does a request for edits, in an orderly world. -/
theorem turn_settles (hs : s.world.Orderly) {n i : Nat} {outcome : Resolution} {t : Task}
    {path path' : String} (hcore : st.core = .resume n)
    (ho : s.world.cache.outcome? n = some outcome) (ht : s.tasks[i]? = some t)
    (hwait : t.state = .waiting n (.edits d path request label)) (hpath : d.path = .ok path') :
    ∀ t', (step s st).1.tasks[i]? = some t' → Settles d request label s st t'.state := by
  intro t' ht'
  have hstate := turn_state hcore ho ht hwait
  rw [ht', Option.map_some, Option.some.injEq] at hstate
  rw [hstate]
  have hframe := resumeTasks_quiet n outcome s.world (s.tasks.take i)
  exact (GoesOn.later hcore ho ht hwait).settles (hframe.orderly hs) (hs.cache.outcome ho) hpath

/-- How a request for edits stands whose errors are contained, after some steps. -/
inductive Contains (d : Snapshot) (request : FormatRequest) (label : Option String) (s : Session)
    (sts : List Step) : TaskState → Prop
  | edits (es : List TextEdit) : Contains d request label s sts (.ended (.ok (.edits es)))
  | waits (n : Nat) (path : String) :
      Contains d request label s sts (.waiting n (.edits d path request label))
  | cancelled : Contains d request label s sts .cancelled
  /-- In one of the steps it has ended in a fault that escapes. -/
  | escapes {e : Fault} : Sometimes (Escapes d request label e) s sts →
      Contains d request label s sts (.ended (.error e))

theorem Settles.contains {state : TaskState} (h : Settles d request label s st state)
    (sts : List Step) : Contains d request label s (st :: sts) state := by
  cases h with
  | edits es => exact .edits es
  | escapes he => exact .escapes (.inl he)

theorem Contains.cons {sts : List Step} {state : TaskState}
    (h : Contains d request label (step s st).1 sts state) :
    Contains d request label s (st :: sts) state := by
  cases h with
  | edits es => exact .edits es
  | waits n path => exact .waits n path
  | cancelled => exact .cancelled
  | escapes he => exact .escapes (.inr he)

/-- Whatever comes after it, a request for edits that waits goes on in an orderly world. -/
theorem run_contains (hs : s.world.Orderly) {sts : List Step}
    (hsts : ∀ st ∈ sts, st.Orderly s.world.limits) {n i : Nat} {t : Task} {path path' : String}
    (ht : s.tasks[i]? = some t) (hwait : t.state = .waiting n (.edits d path request label))
    (hpath : d.path = .ok path') :
    ∃ t', (run s sts).1.tasks[i]? = some t' ∧ Contains d request label s sts t'.state := by
  induction sts generalizing s t with
  | nil => exact ⟨t, ht, hwait ▸ .waits n path⟩
  | cons st sts ih =>
    obtain ⟨u, hu, hbecomes⟩ := step_task ht st
    cases hbecomes with
    | goes hcore hwait' ho _ =>
      rw [hwait] at hwait'
      cases hwait'
      refine ⟨_, run_settled hu nofun sts, ?_⟩
      exact (turn_settles hs hcore ho ht hwait hpath _ hu).contains sts
    | cancelled _ _ _ => exact ⟨_, run_settled hu nofun sts, .cancelled⟩
    | stays _ =>
      obtain ⟨hst, hsts⟩ := List.forall_mem_cons.1 hsts
      obtain ⟨horderly, hlimits⟩ := step_orderly hst hs
      obtain ⟨t', ht', h⟩ := ih horderly (hlimits.symm ▸ hsts) hu hwait
      exact ⟨t', ht', h.cons⟩

/-- So its errors are contained. -/
theorem fate_contains (hs : s.world.Orderly) {sts : List Step}
    (hsteps : ∀ st' ∈ st :: sts, st'.Orderly s.world.limits)
    (hr : s.requestOf st = some (.edits d request label)) (hd : Uri.Parses d.uri) :
    Contains d request label s (st :: sts) (s.fate st sts) := by
  unfold fate
  obtain ⟨n, path, hpath, hwait⟩ | hsettles := request_settles hs hr hd
  · obtain ⟨hst, hsts⟩ := List.forall_mem_cons.1 hsteps
    obtain ⟨horderly, hlimits⟩ := step_orderly hst hs
    obtain ⟨t, ht, hstate⟩ := stands_waiting hwait
    obtain ⟨t', ht', h⟩ := run_contains horderly (hlimits.symm ▸ hsts) ht hstate hpath
    rw [hwait, ht']
    exact h.cons
  · have hcontains := hsettles.contains sts
    cases hstands : s.stands st with
    | waiting n rest =>
      rw [hstands] at hsettles
      cases hsettles
    | ended result =>
      rw [hstands] at hcontains
      exact hcontains
    | cancelled => exact .cancelled

/-! ## Runs -/

end Session

end FormatServer
