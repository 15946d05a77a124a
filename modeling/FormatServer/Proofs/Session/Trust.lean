import FormatServer.Proofs.Session.Shared

/-!
# Trust counts when a fetch ends

Trust is what the client has said last (`run_trusted`). Settings are sanitized or not by the trust at
the step that ends their fetch (`step_ends`, `step_ended`), whatever it was when they were asked for,
and so they stay for all who share the fetch: every value that a request receives has been latched in
some step of the session (`run_latched`), and as long as its key is not evicted all later requests
for the key receive the same (`run_same`).
-/

set_option autoImplicit false

namespace FormatServer

open Act

/-! ## Trust -/

/-- What a step says of trust, if anything. -/
def Step.trust? (st : Step) : Option Bool :=
  match st.core with
  | .trust params => some params.isTrusted
  | _ => none

/-- The trust after some steps: what the last of them has said that speaks of it. -/
def Step.trustAfter (trusted : Bool) (sts : List Step) : Bool :=
  (sts.filterMap Step.trust?).getLast?.getD trusted

theorem Step.trustAfter_cons (trusted : Bool) (st : Step) (sts : List Step) :
    trustAfter trusted (st :: sts) = trustAfter (st.trust?.getD trusted) sts := by
  unfold trustAfter
  cases h : st.trust? with
  | none => rw [List.filterMap_cons_none h]; rfl
  | some t => rw [List.filterMap_cons_some h, List.getLast?_cons]; rfl

theorem Request.run_given (r : Request) : Moves (fun w w' => w'.given = w.given) r.run := by
  intro w
  have hR : Moving fun w w' : World => w'.given = w.given := ⟨fun _ => rfl, fun h h' => h'.trans h⟩
  have hannounce := r.announce_frame (M := fun _ => True) (L := fun _ => True) w
  refine r.run_moves hR hannounce.given (fun uri => ?_) fun rest outcome v _ _ => ?_
  · exact World.fetchSettings_moves hR.refl uri fun _ _ => rfl
  · exact (rest.resume_quiet outcome v).given

namespace Session

/-- A step changes of what a world is given what it says. -/
theorem step_given (s : Session) (st : Step) :
    (step s st).1.world.given = (st.core.sets s.world).given := by
  rw [step_world]
  obtain ⟨fetch, hcore⟩ | ⟨id, hcore⟩ | ⟨r, hr, htake⟩ | ⟨_, haside⟩ := take_cases s st
  · rw [hcore]
    exact (resume_quiet s fetch).given
  · obtain ⟨p, ts, hcancel, _⟩ := cancel_state id s
    have htake : take st.core s = (p, { s with tasks := ts }) := by rw [hcore]; exact hcancel
    rw [htake, hcore]
    rfl
  · rw [htake, request_sets hr]
    exact r.run_given s.world
  · exact haside.given

theorem step_trusted (s : Session) (st : Step) :
    (step s st).1.world.trusted = st.trust?.getD s.world.trusted := by
  have htrusted : (step s st).1.world.given.trusted = (st.core.sets s.world).given.trusted :=
    congrArg World.trusted (step_given s st)
  refine htrusted.trans ?_
  rw [Step.trust?]
  cases st.core <;> rfl

theorem run_trusted (s : Session) (sts : List Step) :
    (run s sts).1.world.trusted = Step.trustAfter s.world.trusted sts := by
  induction sts generalizing s with
  | nil => rfl
  | cons st sts ih =>
    rw [Step.trustAfter_cons, ← step_trusted s st]
    exact ih (step s st).1

end Session

/-! ## The end of a fetch -/

namespace SettingsCache

variable {c : SettingsCache} {n m : Nat} {f : Fetch} {o : Resolution}

/-- A fetch that has ended when the client has answered one had ended before, or is the one. -/
theorem ended_receive {trusted : Bool} {a : Except String Json}
    (h : (c.receive m trusted a).fetch? n = some f) (ho : f.outcome = some o) :
    c.outcome? n = some o ∨
      n = m ∧ o = resolve f.uri trusted a ∧ ∃ f', c.fetch? n = some f' ∧ f'.outcome = none := by
  obtain ⟨hsame, _⟩ | ⟨g, hg, hpending, hended⟩ := c.receive_cases m trusted a
  · rw [hsame] at h
    exact .inl ((outcome?_of_fetch? h).trans ho)
  · rw [hended, fetch?_ended hg] at h
    split at h
    · next hn =>
      cases h
      cases ho
      exact .inr ⟨hn, rfl, g, by rw [hn]; exact hg, hpending⟩
    · exact .inl ((outcome?_of_fetch? h).trans ho)

/-- A fetch that has just been sent has not ended. -/
theorem ended_send {key uri : String} (h : (c.send key uri).outcome? n = some o) :
    c.outcome? n = some o := by
  obtain ⟨f, hf, ho⟩ := Option.bind_eq_some_iff.1 h
  rcases Nat.lt_or_ge c.fetches.length n with hn | hn
  · have hle := fetch?_le hf
    have hlen : (c.send key uri).fetches.length = c.fetches.length + 1 := List.length_append
    obtain rfl : n = c.fetches.length + 1 := by omega
    rw [fetch?_send_new] at hf
    cases hf
    cases ho
  · rw [outcome?, fetch?_send hn] at h
    exact h

theorem resolve_ok {uri : String} {trusted : Bool} {a : Except String Json} {settings : Settings}
    (h : resolve uri trusted a = .ok settings) : ∃ payload given, a = .ok payload ∧
      Settings.ofClient payload = .ok given ∧
      settings = if trusted then given else given.sanitized := by
  cases a with
  | error reason => cases h
  | ok payload =>
    dsimp only [resolve] at h
    cases hgiven : Settings.ofClient payload with
    | error e => rw [hgiven] at h; cases h
    | ok given =>
      rw [hgiven] at h
      cases h
      exact ⟨payload, given, rfl, hgiven, rfl⟩

end SettingsCache

/-- Only an answer ends a fetch. -/
theorem Step.sets_outcome? {st : Step} (hst : ∀ m a, st ≠ .answer m a) (w : World) (n : Nat) :
    (st.sets w).cache.outcome? n = w.cache.outcome? n := by
  cases st with
  | answer m a => exact absurd rfl (hst m a)
  | evict m => exact SettingsCache.outcome?_evict _ _ _
  | _ => rfl

/-- A request for settings that has been answered with some shares a fetch that has come to these. -/
theorem Need.Receives.settings {need : Need} {share : Except Failure Nat} {c : SettingsCache}
    {settings : Settings} (hrest : need.rest = .settings)
    (h : need.Receives share c (.ended (.ok (.settings settings)))) :
    c.outcomeOf share = some (.ok settings) := by
  generalize hstate : TaskState.ended (.ok (.settings settings)) = state at h
  cases h with
  | waits _ => cases hstate
  | @goes outcome u ho =>
    rw [hrest] at hstate
    cases outcome with
    | error e => cases hstate
    | ok given => cases hstate; exact ho
  | cancelled => cases hstate

namespace Session

/-- The step ends a fetch with the client's answer: it is the answer to a fetch under way, or the fetch
is sent in the step and answered at once. -/
inductive Ends (s : Session) (st : Step) (n : Nat) (a : Except String Json) : Prop
  | answered {f : Fetch} : st.core = .answer n a → s.world.cache.fetch? n = some f →
      f.outcome = none → Ends s st n a
  | atOnce {need : Need} : s.need? st = some need → s.world.sends need = true →
      s.world.share need = .ok n → s.world.client.settings n need.uri = .answered a → Ends s st n a

/-- A fetch ends with what the client's answer comes to under the trust at this step. -/
theorem step_ends {s : Session} {st : Step} {n : Nat} {a : Except String Json} (h : s.Ends st n a) :
    ∃ f, (step s st).1.world.cache.fetch? n = some f ∧
      f.outcome = some (SettingsCache.resolve f.uri s.world.trusted a) := by
  cases h with
  | @answered f hcore hf hpending =>
    exact ⟨_, answer_ends hcore hf hpending, rfl⟩
  | @atOnce need hneed hsends hshare hclient =>
    obtain ⟨hnone, href⟩ := World.sends_true hsends
    rw [World.share, hnone, href] at hshare
    cases hshare
    have hasking : s.world.asking need = ((s.world.cache.send need.key need.uri).receive
        (s.world.cache.fetches.length + 1) s.world.trusted a).evict
          (s.world.cache.fetches.length + 1) := by
      rw [World.asking, hsends, World.fetching, hclient]
      rfl
    rw [(step_need hneed).1, hasking, SettingsCache.fetch?_evict,
      SettingsCache.fetch?_receive (SettingsCache.fetch?_send_new _ _ _) rfl]
    exact ⟨_, rfl, rfl⟩

/-- In no other way does a fetch come to an end. -/
theorem step_ended {s : Session} {st : Step} {n : Nat} {f : Fetch} {o : Resolution}
    (h : (step s st).1.world.cache.fetch? n = some f) (ho : f.outcome = some o) :
    s.world.cache.outcome? n = some o ∨
      ∃ a, s.Ends st n a ∧ o = SettingsCache.resolve f.uri s.world.trusted a := by
  have unchanged : (step s st).1.world.cache.outcome? n = s.world.cache.outcome? n →
      s.world.cache.outcome? n = some o := fun hsame => by
    rw [← hsame, SettingsCache.outcome?_of_fetch? h, ho]
  obtain ⟨need, hneed, hc⟩ | ⟨hneed, hc⟩ := step_cache s st
  · cases hsends : s.world.sends need with
    | false => exact .inl (unchanged (by rw [hc, World.asking, hsends]; rfl))
    | true =>
      have hasking : s.world.asking need = (s.world.fetching need.key need.uri).cache := by
        rw [World.asking, hsends]
        rfl
      obtain ⟨hnone, href⟩ := World.sends_true hsends
      rw [hc, hasking, World.fetching] at h
      dsimp only at h
      cases hclient : s.world.client.settings (s.world.cache.fetches.length + 1) need.uri with
      | pending =>
        rw [hclient] at h
        exact .inl (SettingsCache.ended_send ((SettingsCache.outcome?_of_fetch? h).trans ho))
      | answered a =>
        rw [hclient] at h
        dsimp only at h
        rw [SettingsCache.fetch?_evict] at h
        obtain hbefore | ⟨rfl, hresolve, _⟩ := SettingsCache.ended_receive h ho
        · exact .inl (SettingsCache.ended_send hbefore)
        · exact .inr ⟨a, .atOnce hneed hsends (by rw [World.share, hnone, href]) hclient, hresolve⟩
  · by_cases hanswer : ∃ m a, st.core = .answer m a
    · obtain ⟨m, a, hcore⟩ := hanswer
      rw [answer_cache hcore] at h
      obtain hbefore | ⟨rfl, hresolve, f', hf', hpending⟩ := SettingsCache.ended_receive h ho
      · exact .inl hbefore
      · exact .inr ⟨a, .answered hcore hf' hpending, hresolve⟩
    · refine .inl (unchanged ?_)
      rw [hc]
      exact st.core.sets_outcome? (fun m a hcore => hanswer ⟨m, a, hcore⟩) s.world n

/-! ## Latched settings -/

/-- The settings have been latched in a run for a key: a step of it has ended the fetch for the key
with the client's payload, and they are what the payload says if the workspace was trusted then, or
that sanitized. -/
def Latched (s : Session) (sts : List Step) (key : String) (n : Nat) (settings : Settings) : Prop :=
  ∃ before st after payload given f, sts = before ++ st :: after ∧
    (run s before).1.Ends st n (.ok payload) ∧
    (step (run s before).1 st).1.world.cache.fetch? n = some f ∧ f.key = key ∧
    Settings.ofClient payload = .ok given ∧
    settings = if Step.trustAfter s.world.trusted before then given else given.sanitized

theorem Latched.cons {s : Session} {st : Step} {sts : List Step} {key : String} {n : Nat}
    {settings : Settings} (h : (step s st).1.Latched sts key n settings) :
    s.Latched (st :: sts) key n settings := by
  obtain ⟨before, st', after, payload, given, f, rfl, hends, hf, hkey, hgiven, hsettings⟩ := h
  refine ⟨st :: before, st', after, payload, given, f, rfl, hends, hf, hkey, hgiven, ?_⟩
  rw [Step.trustAfter_cons, ← step_trusted]
  exact hsettings

/-- Settings that a fetch has come to in a run have been latched in it. -/
theorem run_latched {s : Session} {sts : List Step} {n : Nat} {f : Fetch} {settings : Settings}
    (hf : (run s sts).1.world.cache.fetch? n = some f) (ho : f.outcome = some (.ok settings))
    (hnew : s.world.cache.outcome? n = none) : s.Latched sts f.key n settings := by
  induction sts generalizing s with
  | nil =>
    have hout : s.world.cache.outcome? n = some (.ok settings) :=
      (SettingsCache.outcome?_of_fetch? hf).trans ho
    rw [hnew] at hout
    cases hout
  | cons st sts ih =>
    cases hout : (step s st).1.world.cache.outcome? n with
    | none => exact (ih hf hout).cons
    | some o =>
      -- the fetch ends in this step, and keeps its outcome and its key from then on
      obtain ⟨g, hg, hgo⟩ := Option.bind_eq_some_iff.1 hout
      obtain ⟨f', hf', hkey, hkeep⟩ := (run_ages (step s st).1 sts).fetch n g hg
      have hrun : (run (step s st).1 sts).1.world.cache.fetch? n = some f := hf
      rw [hrun] at hf'
      cases hf'
      obtain rfl : o = .ok settings := Option.some.inj ((hkeep o hgo).symm.trans ho)
      obtain hbefore | ⟨a, hends, hresolve⟩ := step_ended hg hgo
      · rw [hnew] at hbefore
        cases hbefore
      · obtain ⟨payload, given, rfl, hgiven, hsettings⟩ := SettingsCache.resolve_ok hresolve.symm
        exact ⟨[], st, sts, payload, given, g, rfl, hends, hg, hkey.symm, hgiven, hsettings⟩

/-! ## The same settings for all -/

/-- As long as a key is not evicted whose fetch has ended, every request for it goes on with the
settings of this fetch at once. -/
theorem run_same {s : Session} (hs : s.world.cache.Sound) {key : String} {n : Nat}
    {settings : Settings} (hn : s.world.cache.current? key = some n)
    (ho : s.world.cache.outcome? n = some (.ok settings)) {sts : List Step}
    (hkept : Always (fun s st => ¬ s.Evicts st key) s sts) {st : Step} {need : Need}
    (hneed : (run s sts).1.need? st = some need) (hkey : need.key = key) :
    ∃ u, (run s sts).1.stands st = .ended (need.rest.resume (.ok settings) u).1 := by
  have hcurrent : (run s sts).1.world.cache.current? key = some n := by
    induction sts generalizing s with
    | nil => exact hn
    | cons st' sts ih =>
      obtain ⟨hst, hkept⟩ := hkept
      exact ih (step_cache_sound s st' hs) ((step_current hs st' key n).2 ⟨hst, .inl hn⟩)
        ((step_ages s st').outcome ho) hkept hneed
  have hended := (run_ages s sts).outcome ho
  have hshare : (run s sts).1.world.share need = .ok n := by rw [World.share, hkey, hcurrent]
  have hout := (World.asking_ages (run s sts).1.world need).outcome hended
  obtain ⟨_, _, ⟨m, hm, hpending, _⟩ | ⟨o, u, hm, hstands⟩⟩ := step_need hneed
  · rw [hshare] at hm
    cases hm
    rw [hout] at hpending
    cases hpending
  · rw [hshare] at hm
    obtain rfl : o = .ok settings := Option.some.inj (hm.symm.trans hout)
    exact ⟨u, hstands⟩

theorem run_append (s : Session) (sts sts' : List Step) :
    (run s (sts ++ sts')).1 = (run (run s sts).1 sts').1 := by
  induction sts generalizing s with
  | nil => rfl
  | cons st sts ih => exact ih (step s st).1

/-- How a session that has begun as `s₀` and taken some steps goes on to latch trust, whatever the
next steps are. -/
structure LatchesTrust (s₀ : Session) (before : List Step) : Prop where
  /-- Trust is what the client has said last. -/
  trusted : (run s₀ before).1.world.trusted = Step.trustAfter s₀.world.trusted before
  /-- A fetch ends under the trust at the step that ends it. -/
  ends : ∀ st n a, (run s₀ before).1.Ends st n a →
    ∃ f, (step (run s₀ before).1 st).1.world.cache.fetch? n = some f ∧ f.outcome =
      some (SettingsCache.resolve f.uri (Step.trustAfter s₀.world.trusted before) a)
  /-- A request waits for what it shares, until its turn comes after the fetch has ended, or goes on
  with its outcome, and settings that this is have been latched for its key. -/
  receives : ∀ st need sts, (run s₀ before).1.need? st = some need →
    let share := (run s₀ before).1.world.share need
    let cache := (run s₀ (before ++ st :: sts)).1.world.cache
    need.Receives share cache ((run s₀ before).1.fate st sts) ∧
      (∀ n, share = .ok n → Sometimes (Turns n) (step (run s₀ before).1 st).1 sts →
        ∀ rest, (run s₀ before).1.fate st sts ≠ .waiting n rest) ∧
      ∀ settings, cache.outcomeOf share = some (.ok settings) →
        ∃ n, share = .ok n ∧ s₀.Latched (before ++ st :: sts) need.key n settings
  /-- So the settings with which a request for settings is answered have been latched for its key. -/
  answers : ∀ st need sts settings, (run s₀ before).1.need? st = some need → need.rest = .settings →
    (run s₀ before).1.fate st sts = .ended (.ok (.settings settings)) →
    ∃ n, s₀.Latched (before ++ st :: sts) need.key n settings
  /-- Until a key is evicted all later requests for it go on with the settings of its fetch. -/
  same : ∀ key n settings sts st need, (run s₀ before).1.world.cache.current? key = some n →
    (run s₀ before).1.world.cache.outcome? n = some (.ok settings) →
    Always (fun s st => ¬ s.Evicts st key) (run s₀ before).1 sts →
    (run (run s₀ before).1 sts).1.need? st = some need → need.key = key →
    ∃ u, (run (run s₀ before).1 sts).1.stands st = .ended (need.rest.resume (.ok settings) u).1

/-- A request that asks for settings in a session that has begun without any waits for those that it
shares or goes on with them, and they have been latched. -/
theorem receives_latched {s₀ : Session} (hempty : s₀.world.cache.fetches = [])
    (hs₀ : s₀.world.cache.Sound) (before : List Step) {st : Step} {need : Need}
    (hneed : (run s₀ before).1.need? st = some need) (sts : List Step) :
    let share := (run s₀ before).1.world.share need
    let cache := (run s₀ (before ++ st :: sts)).1.world.cache
    need.Receives share cache ((run s₀ before).1.fate st sts) ∧
      (∀ n, share = .ok n → Sometimes (Turns n) (step (run s₀ before).1 st).1 sts →
        ∀ rest, (run s₀ before).1.fate st sts ≠ .waiting n rest) ∧
      ∀ settings, cache.outcomeOf share = some (.ok settings) →
        ∃ n, share = .ok n ∧ s₀.Latched (before ++ st :: sts) need.key n settings := by
  have hsound := run_cache_sound hs₀ before
  have hrun : (run s₀ (before ++ st :: sts)).1 = (run (step (run s₀ before).1 st).1 sts).1 :=
    run_append s₀ before (st :: sts)
  obtain ⟨hreceives, -, hturned⟩ := run_receives hneed sts
  refine ⟨by rw [hrun]; exact hreceives, hturned, fun settings ho => ?_⟩
  cases hshare : (run s₀ before).1.world.share need with
  | error f => rw [hshare] at ho; cases ho
  | ok n =>
    rw [hshare] at ho
    obtain ⟨f, hf, hout⟩ := Option.bind_eq_some_iff.1 ho
    -- the fetch has the key of the request as soon as it is shared
    obtain ⟨g, hg, hkey⟩ := World.share_fetch hsound hshare
    rw [← (step_need hneed).1] at hg
    obtain ⟨f', hf', hkey', _⟩ := (run_ages (step (run s₀ before).1 st).1 sts).fetch n g hg
    rw [← hrun, hf] at hf'
    cases hf'
    have hnew : s₀.world.cache.outcome? n = none := by
      unfold SettingsCache.outcome? SettingsCache.fetch?
      rw [hempty]
      split <;> rfl
    have hlatched := run_latched hf hout hnew
    rw [hkey', hkey] at hlatched
    exact ⟨n, rfl, hlatched⟩

theorem latchesTrust {s₀ : Session} (hempty : s₀.world.cache.fetches = [])
    (hs₀ : s₀.world.cache.Sound) (before : List Step) : s₀.LatchesTrust before where
  trusted := run_trusted s₀ before
  ends st n a h := by
    rw [← run_trusted]
    exact step_ends h
  receives st need sts hneed := receives_latched hempty hs₀ before hneed sts
  answers st need sts settings hneed hrest hfate := by
    obtain ⟨hreceives, -, hlatched⟩ := receives_latched hempty hs₀ before hneed sts
    rw [hfate] at hreceives
    obtain ⟨n, _, h⟩ := hlatched settings (hreceives.settings hrest)
    exact ⟨n, h⟩
  same key n settings sts st need hn ho hkept hneed hkey :=
    run_same (run_cache_sound hs₀ before) hn ho hkept hneed hkey

/-- Whatever happens to a session, the settings that its requests receive are sanitized or not by the
trust at the end of their fetch, and stay so until their key is evicted. -/
theorem trust_latched (files : Files) (home : String) (client : Client)
    (reply : List Command → Command → Reply) (config : ServerConfig) (logger : Logger)
    (limits : Limits) (before : List Step) :
    (fresh files home client reply config logger limits).LatchesTrust before :=
  latchesTrust rfl (fresh_cache_sound files home client reply config logger limits) before

/-- Trust that is granted while a fetch is under way counts, and is not missed when it goes later. -/
example :
    let client : Client := ⟨fun _ _ => .pending, fun _ _ => .ok .null⟩
    let trust (yes : Bool) : Step := .trust (.value (.obj [("isTrusted", .bool yes)]))
    let sts := [.start "first" (.settings "file:///a.js"), trust true,
      .answer 1 (.ok (.obj [("withNodeModules", .bool true)])), trust false, .resume 1,
      .start "second" (.settings "file:///a.js")]
    (run (fresh {} "/" client default {} {} {}) sts).1.tasks.map (fun t => match t.state with
      | .ended (.ok (.settings settings)) => settings.withNodeModules
      | _ => false) = [true, true] := by
  decide +kernel

end Session

end FormatServer
