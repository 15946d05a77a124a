import FormatServer.Proofs.Session.Tasks
import FormatServer.Proofs.SettingsCache

/-!
# Which fetches a session makes

A request needs the settings of a key (`Request.need?`). It shares the current fetch of the key, or
has one sent, or has none if none can be sent (`World.share`). What a step does to the settings
cache and which fetches it sends follows from this and from what it says of fetches itself
(`step_need`, `step_needless`).
-/

set_option autoImplicit false

namespace FormatServer

open Act

/-! ## What requests need -/

/-- What a request needs settings for: their key, the URI to fetch them for, and what is left to do
then. -/
structure Need where
  key : String
  uri : String
  rest : Continuation

/-- What a request needs, if it can say so and its URI has a key. -/
def Request.need? (r : Request) : Option Need :=
  match r.announced with
  | .ok (uri, rest) =>
    match World.settingsKey uri with
    | .ok key => some ⟨key, uri, rest⟩
    | .error _ => none
  | .error _ => none

/-- The key of the settings that a message fetches. -/
def Message.fetchedKey? : Message → Option String
  | .fetchSettings uri _ => (World.settingsKey uri).toOption
  | _ => none

/-- The fetches that have been sent so far. -/
def World.fetchesSent (w : World) : List Message :=
  w.journal.sent.filter fun m => m.fetchedKey?.isSome

namespace World

variable (w : World) (need : Need)

/-- A request has a fetch sent. -/
def sends : Bool := (w.cache.current? need.key).isNone && w.config.sectionRefusal?.isNone

/-- The number of the fetch that a request shares, or why none can be sent. -/
def share : Except Failure Nat :=
  match w.cache.current? need.key with
  | some n => .ok n
  | none =>
    match w.config.sectionRefusal? with
    | some reason => .error (.settings reason need.uri)
    | none => .ok (w.cache.fetches.length + 1)

/-- The cache after a request has asked for settings. -/
def asking : SettingsCache :=
  if w.sends need then (w.fetching need.key need.uri).cache else w.cache

/-- The fetches that a request sends. -/
def asks : List Message :=
  if w.sends need then [.fetchSettings need.uri w.config.settingsSection] else []

end World

/-- How that has ended which a request shares. -/
def SettingsCache.outcomeOf (c : SettingsCache) : Except Failure Nat → Option Resolution
  | .ok n => c.outcome? n
  | .error f => some (.error (.failure f))

theorem Request.need_some {r : Request} {need : Need} (h : r.need? = some need) :
    r.announced = .ok (need.uri, need.rest) ∧ World.settingsKey need.uri = .ok need.key := by
  unfold need? at h
  split at h
  · next uri rest hannounced =>
    split at h
    · next key hkey =>
      cases h
      exact ⟨hannounced, hkey⟩
    · cases h
  · cases h

theorem Request.need_none {r : Request} {uri : String} {rest : Continuation} (h : r.need? = none)
    (hannounced : r.announced = .ok (uri, rest)) : ∃ e, World.settingsKey uri = .error e := by
  unfold need? at h
  rw [hannounced] at h
  dsimp only at h
  cases hkey : World.settingsKey uri with
  | ok key => rw [hkey] at h; cases h
  | error e => exact ⟨e, rfl⟩

/-! ## Asking -/

theorem World.Frame.fetchesSent {L : Launch → Prop} {w w' : World}
    (h : World.Frame (fun m => m.fetchedKey? = none) L w w') : w'.fetchesSent = w.fetchesSent :=
  h.sent.filter_eq fun m hm => by rw [hm]; rfl

theorem Continuation.resume_quiet (rest : Continuation) (outcome : Resolution) (w : World) :
    World.Frame (fun m => m.fetchedKey? = none) (fun _ => True) w (rest.resume outcome w).2 :=
  rest.resume_frame (fun settings _ => World.formats (fun _ => rfl) settings) trivial
    fun m hm => by cases m <;> first | rfl | cases hm

/-- Asking for settings comes to what is shared. -/
theorem World.fetchSettings_need {need : Need} (hkey : settingsKey need.uri = .ok need.key)
    (w : World) : (fetchSettings need.uri w).1 = (w.share need).mapError .failure ∧
      (fetchSettings need.uri w).2.cache = w.asking need ∧
      (fetchSettings need.uri w).2.fetchesSent = w.fetchesSent ++ w.asks need := by
  generalize hp : fetchSettings need.uri w = p
  have h := fetched need.uri w
  rw [hp] at h
  unfold share asking asks sends
  cases h with
  | nameless h => rw [hkey] at h; cases h
  | shared h hn =>
    cases hkey.symm.trans h
    rw [hn]
    exact ⟨rfl, rfl, (List.append_nil _).symm⟩
  | refused h hn hrefused =>
    cases hkey.symm.trans h
    rw [hn, hrefused]
    exact ⟨rfl, rfl, (List.append_nil _).symm⟩
  | sent h hn hsendable =>
    cases hkey.symm.trans h
    rw [hn, hsendable]
    refine ⟨rfl, rfl, ?_⟩
    show (w.journal.sent ++ [Message.fetchSettings need.uri _]).filter _ = _
    rw [List.filter_append, List.filter_singleton]
    simp only [Message.fetchedKey?, hkey]
    rfl

theorem World.share_stage {w : World} {need : Need} {f : Failure} (h : w.share need = .error f) :
    f.stage = .settings := by
  unfold share at h
  split at h
  · cases h
  · split at h <;> cases h
    rfl

/-- Once a request that needs settings has announced itself, it asks for what it shares. -/
theorem Request.asked {r : Request} {need : Need} (h : r.need? = some need) {w u : World}
    {uri : String} {rest : Continuation} {p : Except Fault Nat × World}
    (ha : r.announce w = (.ok (uri, rest), u)) (hf : World.fetchSettings uri u = p) :
    uri = need.uri ∧ rest = need.rest ∧ p.1 = (w.share need).mapError .failure ∧
      p.2.cache = w.asking need ∧ p.2.fetchesSent = w.fetchesSent ++ w.asks need := by
  obtain ⟨hannounced, hkey⟩ := need_some h
  have hannounced' := announced_of_announce ha
  rw [hannounced] at hannounced'
  cases hannounced'
  have hframe := r.announce_frame (M := fun m => m.fetchedKey? = none) (L := fun _ => True) w
  rw [ha] at hframe
  -- announcing changes nothing that counts
  have hsame : u.share need = w.share need ∧ u.asking need = w.asking need ∧
      u.asks need = w.asks need := by
    unfold World.share World.asking World.asks World.sends World.fetching
    rw [hframe.cache, hframe.config, hframe.client, hframe.trusted]
    exact ⟨rfl, rfl, rfl⟩
  obtain ⟨hresult, hcache, hsent⟩ := World.fetchSettings_need hkey u
  rw [hf, hsame.1] at hresult
  rw [hf, hsame.2.1] at hcache
  rw [hf, hsame.2.2, hframe.fetchesSent] at hsent
  exact ⟨rfl, rfl, hresult, hcache, hsent⟩

/-- What becomes of a request that needs settings: it waits for those that it shares, or goes on with
them. -/
theorem Request.run_need {r : Request} {need : Need} (h : r.need? = some need) (w : World) :
    ∃ v, v.cache = w.asking need ∧ v.fetchesSent = w.fetchesSent ++ w.asks need ∧
      ((∃ n, w.share need = .ok n ∧ v.cache.outcome? n = none ∧
          r.run w = (.ok (.waiting n need.rest), v)) ∨
        ∃ o, v.cache.outcomeOf (w.share need) = some o ∧
          r.run w = Progress.ends (need.rest.resume o v)) := by
  have after : ∀ {uri rest u p}, r.announce w = (.ok (uri, rest), u) →
      World.fetchSettings uri u = p → uri = need.uri ∧ rest = need.rest ∧
        p.1 = (w.share need).mapError .failure ∧ p.2.cache = w.asking need ∧
        p.2.fetchesSent = w.fetchesSent ++ w.asks need := asked h
  generalize hp : r.run w = p
  have hran := r.ran w
  rw [hp] at hran
  cases hran with
  | unannounced ha =>
    have hannounced' := announced_of_announce ha
    rw [(need_some h).1] at hannounced'
    cases hannounced'
  | nameless ha hf hs =>
    obtain ⟨_, _, hresult, _, _⟩ := after ha hf
    cases hshare : w.share need with
    | ok n => rw [hshare] at hresult; cases hresult
    | error f =>
      rw [hshare] at hresult
      cases hresult
      rw [settled_ok_error.2 ⟨rfl, World.share_stage hshare⟩] at hs
      cases hs
  | refused ha hf _ =>
    obtain ⟨_, rfl, hresult, hcache, hsent⟩ := after ha hf
    refine ⟨_, hcache, hsent, .inr ⟨_, ?_, rfl⟩⟩
    cases hshare : w.share need with
    | ok n => rw [hshare] at hresult; cases hresult
    | error f => rw [hshare] at hresult; cases hresult; rfl
  | waits ha hf ho =>
    obtain ⟨_, rfl, hresult, hcache, hsent⟩ := after ha hf
    refine ⟨_, hcache, hsent, .inl ⟨_, ?_, ho, rfl⟩⟩
    cases hshare : w.share need with
    | ok n => rw [hshare] at hresult; cases hresult; rfl
    | error f => rw [hshare] at hresult; cases hresult
  | resumes ha hf ho =>
    obtain ⟨_, rfl, hresult, hcache, hsent⟩ := after ha hf
    refine ⟨_, hcache, hsent, .inr ⟨_, ?_, rfl⟩⟩
    cases hshare : w.share need with
    | ok n => rw [hshare] at hresult; cases hresult; exact ho
    | error f => rw [hshare] at hresult; cases hresult

/-- A request that needs no settings, or cannot say which, fetches none. -/
theorem Request.run_needless {r : Request} (h : r.need? = none) (w : World) :
    (r.run w).2.cache = w.cache ∧ (r.run w).2.fetchesSent = w.fetchesSent := by
  have announced : ∀ {p}, r.announce w = p → p.2.cache = w.cache ∧ p.2.fetchesSent = w.fetchesSent :=
    fun ha => by
      have hframe := r.announce_frame (M := fun m => m.fetchedKey? = none) (L := fun _ => True) w
      rw [ha] at hframe
      exact ⟨hframe.cache, hframe.fetchesSent⟩
  -- without a key nothing is asked for
  have asked : ∀ {uri rest u p}, r.announce w = (.ok (uri, rest), u) →
      World.fetchSettings uri u = p → ∃ e, p = (.error e, u) := by
    intro uri rest u p ha hf
    obtain ⟨e, hkey⟩ := need_none h (announced_of_announce ha)
    have hfetched := World.fetched uri u
    rw [hf] at hfetched
    cases hfetched with
    | nameless _ => exact ⟨_, rfl⟩
    | shared hok _ => rw [hkey] at hok; cases hok
    | refused hok _ _ => rw [hkey] at hok; cases hok
    | sent hok _ _ => rw [hkey] at hok; cases hok
  generalize hp : r.run w = p
  have hran := r.ran w
  rw [hp] at hran
  cases hran with
  | unannounced ha => exact announced ha
  | nameless ha hf _ =>
    obtain ⟨_, hu⟩ := asked ha hf
    cases hu
    exact announced ha
  | @refused uri rest f u v ha hf _ =>
    obtain ⟨_, hu⟩ := asked ha hf
    cases hu
    have hframe := rest.resume_quiet (.error (.failure f)) u
    obtain ⟨hcache, hsent⟩ := announced ha
    exact ⟨hframe.cache.trans hcache, hframe.fetchesSent.trans hsent⟩
  | waits ha hf _ =>
    obtain ⟨_, hu⟩ := asked ha hf
    cases hu
  | resumes ha hf _ =>
    obtain ⟨_, hu⟩ := asked ha hf
    cases hu

/-! ## Steps -/

namespace Session

/-- What the request of a step needs. -/
def need? (s : Session) (st : Step) : Option Need := (s.requestOf st).bind Request.need?

/-- The fetches that a step reports as sent are those that it adds to the journal. -/
theorem step_fetches {s : Session} {st : Step} {ms : List Message}
    (h : (step s st).1.world.fetchesSent = s.world.fetchesSent ++ ms) :
    ((step s st).2.sent.filter fun m => m.fetchedKey?.isSome) = ms := by
  rw [World.fetchesSent, step_sent, List.filter_append] at h
  exact List.append_cancel_left h

/-- A step whose request needs settings does to the cache what asking for them does, sends what it
sends, and then waits for what is shared or has gone on with it. -/
theorem step_need {s : Session} {st : Step} {need : Need} (h : s.need? st = some need) :
    (step s st).1.world.cache = s.world.asking need ∧
      ((step s st).2.sent.filter fun m => m.fetchedKey?.isSome) = s.world.asks need ∧
      ((∃ n, s.world.share need = .ok n ∧ (s.world.asking need).outcome? n = none ∧
          s.stands st = .waiting n need.rest) ∨
        ∃ o u, (s.world.asking need).outcomeOf (s.world.share need) = some o ∧
          s.stands st = .ended (need.rest.resume o u).1) := by
  obtain ⟨r, hr, hneed⟩ := Option.bind_eq_some_iff.1 h
  have htake : take st.core s = ((r.run s.world).1, { s with world := (r.run s.world).2 }) :=
    (take_request hr).trans (onWorld_apply r.run s)
  have hworld : (step s st).1.world = (r.run s.world).2 := by rw [step_world, htake]
  have hstands : s.stands st = standing (r.run s.world).1 := by rw [stands_eq, htake]
  obtain ⟨v, hcache, hsent, ⟨n, hshare, ho, hrun⟩ | ⟨o, ho, hrun⟩⟩ := Request.run_need hneed s.world
  · rw [hrun] at hworld hstands
    rw [hcache] at ho
    refine ⟨by rw [hworld, hcache], step_fetches ?_, .inl ⟨n, hshare, ho, hstands⟩⟩
    rw [hworld]
    exact hsent
  · have hframe := need.rest.resume_quiet o v
    rw [hrun] at hworld hstands
    rw [standing_ends] at hstands
    rw [hcache] at ho
    replace hworld : (step s st).1.world = (need.rest.resume o v).2 := hworld
    refine ⟨?_, step_fetches ?_, .inr ⟨o, v, ho, hstands⟩⟩
    · rw [hworld, hframe.cache, hcache]
    · rw [hworld, hframe.fetchesSent]
      exact hsent

theorem resumeTasks_quiet (fetch : Nat) (outcome : Resolution) (w : World) (ts : List Task) :
    World.Frame (fun m => m.fetchedKey? = none) (fun _ => True) w
      (resumeTasks fetch outcome w ts).1 :=
  (resumeTasks_resumed World.Frame.moving (J := fun _ => True) (fun _ => id)
    (fun rest u _ => rest.resume_quiet outcome u) ts trivial).1

theorem resume_quiet (s : Session) (fetch : Nat) :
    World.Frame (fun m => m.fetchedKey? = none) (fun _ => True) s.world (resume fetch s).2.world := by
  rw [resume_apply]
  cases s.world.cache.outcome? fetch with
  | none => exact World.Frame.moving.refl _
  | some outcome => exact resumeTasks_quiet fetch outcome s.world s.tasks

/-- A step whose request needs no settings, or that makes none, does to the cache what it says of
fetches, and sends none. -/
theorem step_needless {s : Session} {st : Step} (h : s.need? st = none) :
    (step s st).1.world.cache = (st.core.sets s.world).cache ∧
      ((step s st).2.sent.filter fun m => m.fetchedKey?.isSome) = [] := by
  have sends_none : (take st.core s).2.world.fetchesSent = s.world.fetchesSent →
      ((step s st).2.sent.filter fun m => m.fetchedKey?.isSome) = [] := fun hsent =>
    step_fetches (by rw [step_world, hsent, List.append_nil])
  rw [step_world]
  obtain ⟨fetch, hcore⟩ | ⟨id, hcore⟩ | ⟨r, hr, htake⟩ | ⟨_, haside⟩ := take_cases s st
  · have hframe := resume_quiet s fetch
    have htake : take st.core s = resume fetch s := by rw [hcore]; rfl
    rw [← htake] at hframe
    exact ⟨by rw [hframe.cache, hcore]; rfl, sends_none hframe.fetchesSent⟩
  · obtain ⟨p, ts, hcancel, _⟩ := cancel_state id s
    have htake : take st.core s = (p, { s with tasks := ts }) := by rw [hcore]; exact hcancel
    rw [htake] at sends_none ⊢
    exact ⟨by rw [hcore]; rfl, sends_none rfl⟩
  · have hworld : (take st.core s).2.world = (r.run s.world).2 := by
      rw [htake]
      exact congrArg (·.2.world) (onWorld_apply r.run s)
    have hneed : r.need? = none := by rwa [need?, hr] at h
    obtain ⟨hcache, hsent⟩ := Request.run_needless hneed s.world
    rw [hworld] at sends_none ⊢
    exact ⟨by rw [request_sets hr, hcache], sends_none hsent⟩
  · refine ⟨haside.cache, sends_none (haside.sent.filter_eq fun m hm => ?_)⟩
    obtain hregisters | ⟨hasks, _⟩ := hm
    · cases m <;> first | rfl | cases hregisters
    · cases m <;> first | rfl | cases hasks

/-- A step does to the cache what its request asks for, or else what it says of fetches. -/
theorem step_cache (s : Session) (st : Step) :
    (∃ need, s.need? st = some need ∧ (step s st).1.world.cache = s.world.asking need) ∨
      s.need? st = none ∧ (step s st).1.world.cache = (st.core.sets s.world).cache := by
  cases h : s.need? st with
  | some need => exact .inl ⟨need, rfl, (step_need h).1⟩
  | none => exact .inr ⟨rfl, (step_needless h).1⟩

theorem need_none {s : Session} {st : Step} (h : s.requestOf st = none) : s.need? st = none := by
  rw [need?, h]
  rfl

theorem answer_cache {s : Session} {st : Step} {n : Nat} {a : Except String Json}
    (hcore : st.core = .answer n a) :
    (step s st).1.world.cache = s.world.cache.receive n s.world.trusted a := by
  rw [(step_needless (need_none (by rw [requestOf, hcore]))).1, hcore]
  rfl

theorem clear_cache {s : Session} {st : Step} (h : st.clears = true) :
    (step s st).1.world.cache = s.world.cache.clear := by
  rw [(step_needless (need_none (requestOf_clears h))).1, Step.clears_iff.1 h]
  rfl

end Session

end FormatServer
