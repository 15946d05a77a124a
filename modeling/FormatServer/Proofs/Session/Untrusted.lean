import FormatServer.Proofs.Session.Tasks
import FormatServer.Proofs.SettingsCache
import FormatServer.Proofs.World.Safe

/-!
# Before trust is granted

Until the client says that the workspace is trusted, the settings that count are sanitized: they
choose neither a module nor a configuration file nor an ignore file (`SettingsCache.Safe`). So every
process that is started runs the bundled module, and what it is asked is confined
(`Launch.Confined`); package managers are neither started nor asked for (`untrusted_confined`).
-/

set_option autoImplicit false

namespace FormatServer

open Act

/-- All settings that have been fetched are safe. -/
def SettingsCache.Safe (c : SettingsCache) : Prop :=
  ∀ f ∈ c.fetches, ∀ settings, f.outcome = some (.ok settings) → settings.Safe

/-- The step says that the workspace is trusted. -/
def Step.grantsTrust (st : Step) : Bool :=
  match st.core with
  | .trust params => params.isTrusted
  | _ => false

/-! ## The settings cache stays safe -/

namespace SettingsCache

variable {c : SettingsCache}

/-- That all settings are safe is something that is said of every outcome. -/
theorem safe_iff : c.Safe ↔ c.Every fun o => ∀ settings, o = .ok settings → settings.Safe :=
  ⟨fun h f hf _ ho settings hs => h f hf settings (hs ▸ ho), fun h f hf _ hs => h f hf _ hs _ rfl⟩

theorem Safe.send (hc : c.Safe) (key uri : String) : (c.send key uri).Safe :=
  safe_iff.2 ((safe_iff.1 hc).send key uri)

theorem Safe.receive (hc : c.Safe) (n : Nat) (a : Except String Json) :
    (c.receive n false a).Safe :=
  safe_iff.2 ((safe_iff.1 hc).receive n fun _ _ => resolve_safe)

theorem Safe.evict (hc : c.Safe) (n : Nat) : (c.evict n).Safe :=
  safe_iff.2 ((safe_iff.1 hc).evict n)

theorem Safe.clear (hc : c.Safe) : c.clear.Safe := hc

theorem Safe.outcome (hc : c.Safe) {n : Nat} {settings : Settings}
    (h : c.outcome? n = some (.ok settings)) : settings.Safe :=
  (safe_iff.1 hc).outcome h settings rfl

end SettingsCache

/-- The workspace is not trusted, and all settings are safe. -/
structure World.Guarded (w : World) : Prop where
  untrusted : w.trusted = false
  safe : w.cache.Safe

/-- What is said of fetches keeps settings safe as long as the workspace is not trusted. -/
theorem Step.sets_safe (st : Step) {w : World} (hw : w.Guarded) : (st.sets w).cache.Safe := by
  cases st with
  | shutdown => exact hw.safe.clear
  | answer n a =>
    show (w.cache.receive n w.trusted a).Safe
    rw [hw.untrusted]
    exact hw.safe.receive n a
  | evict n => exact hw.safe.evict n
  | _ => exact hw.safe

/-- A guarded world stays so, with the same configuration, and no more is started and asked for than
is confined to the bundled module. -/
def World.Stays (w w' : World) : Prop :=
  w.Guarded → w'.Guarded ∧ w'.config = w.config ∧
    Adds (fun m => m.asksManager = false) w.journal.sent w'.journal.sent ∧
    Adds (Launch.Confined w.config.bundledPrettierPath) w.journal.launches w'.journal.launches

namespace World

theorem Stays.moving : Moving Stays where
  refl w hw := ⟨hw, rfl, .nothing, .nothing⟩
  trans h h' hw := by
    obtain ⟨hguarded, hconfig, hsent, hlaunches⟩ := h hw
    obtain ⟨hguarded', hconfig', hsent', hlaunches'⟩ := h' hguarded
    rw [hconfig] at hlaunches'
    exact ⟨hguarded', hconfig'.trans hconfig, hsent.trans hsent', hlaunches.trans hlaunches'⟩

theorem Frame.stays {w w' : World} (h : Frame (fun m => m.asksManager = false)
    (Launch.Confined w.config.bundledPrettierPath) w w') : Stays w w' := fun hw =>
  ⟨⟨h.trusted.trans hw.untrusted, by rw [h.cache]; exact hw.safe⟩, h.config, h.sent, h.launches⟩

theorem fetching_stays (w : World) (key uri : String) : Stays w (w.fetching key uri) := by
  intro hw
  refine ⟨⟨hw.untrusted, ?_⟩, rfl, .one rfl, .nothing⟩
  show (fetching w key uri).cache.Safe
  unfold fetching
  dsimp only
  split
  · exact hw.safe.send key uri
  · rw [hw.untrusted]
    exact ((hw.safe.send key uri).receive _ _).evict _

end World

theorem Continuation.resume_stays (rest : Continuation) {outcome : Resolution}
    (h : ∀ settings, outcome = .ok settings → settings.Safe) :
    Moves World.Stays (rest.resume outcome) := fun w hw =>
  World.Frame.stays (rest.resume_frame (fun settings hs => (h settings hs).formats _ w.config)
    ⟨hw.untrusted, rfl⟩ fun m hm => by cases m <;> first | rfl | cases hm) hw

theorem Request.run_stays (r : Request) : Moves World.Stays r.run := by
  intro w hw
  have hR := World.Stays.moving
  refine r.run_moves hR (World.Frame.stays (r.announce_frame w)) (fun uri => ?_) ?_ hw
  · exact World.fetchSettings_moves hR.refl uri fun u key => u.fetching_stays key uri
  -- the settings at hand are safe because they come from the cache
  intro rest outcome v hv houtcome
  refine rest.resume_stays (fun settings hs => ?_) v
  obtain ⟨_, _, n, _, _, ho⟩ := houtcome settings hs
  exact (hv hw).1.safe.outcome (hs ▸ ho)

namespace Session

/-! ## Steps -/

theorem resume_stays (s : Session) (fetch : Nat) :
    World.Stays s.world (resume fetch s).2.world := by
  intro hs
  rw [resume_apply]
  cases ho : s.world.cache.outcome? fetch with
  | none => exact World.Stays.moving.refl _ hs
  | some outcome =>
    have hsafe : ∀ settings, outcome = .ok settings → settings.Safe := fun settings h =>
      hs.safe.outcome (h ▸ ho)
    exact (resumeTasks_resumed World.Stays.moving (J := World.Guarded) (fun h hu => (h hu).1)
      (fun rest u _ => rest.resume_stays hsafe u) s.tasks hs).1 hs

/-- In a step that grants no trust the world stays guarded, and what is started and asked for is
confined. -/
theorem step_confined {s : Session} {st : Step} (hs : s.world.Guarded) (hst : st.isMessage = true)
    (htrust : st.grantsTrust = false) :
    (step s st).1.world.Guarded ∧ (∀ m ∈ (step s st).2.sent, m.asksManager = false) ∧
      ∀ l ∈ (step s st).2.launches, l.Confined s.world.config.bundledPrettierPath := by
  have stays : World.Stays s.world (take st.core s).2.world →
      (step s st).1.world.Guarded ∧ (∀ m ∈ (step s st).2.sent, m.asksManager = false) ∧
        ∀ l ∈ (step s st).2.launches, l.Confined s.world.config.bundledPrettierPath := fun h => by
    obtain ⟨hguarded, _, hsent, hlaunches⟩ := h hs
    rw [← step_world] at hguarded hsent hlaunches
    rw [step_sent] at hsent
    rw [step_launches] at hlaunches
    exact ⟨hguarded, hsent.of_append, hlaunches.of_append⟩
  obtain ⟨fetch, hcore⟩ | ⟨id, hcore⟩ | ⟨r, _, htake⟩ | ⟨_, h⟩ := take_cases s st
  · refine stays ?_
    rw [hcore]
    exact resume_stays s fetch
  · refine stays ?_
    rw [hcore]
    obtain ⟨p, ts, hcancel, _⟩ := cancel_state id s
    show World.Stays s.world (cancel id s).2.world
    rw [hcancel]
    exact World.Stays.moving.refl _
  · refine stays ?_
    rw [htake]
    show World.Stays s.world (onWorld r.run s).2.world
    rw [onWorld_apply]
    exact r.run_stays s.world
  · -- a step aside starts nothing, and may change the configuration
    have hsent := h.sent
    have hlaunches := h.launches
    rw [← step_world, step_sent, st.isMessage_core, hst] at hsent
    rw [← step_world, step_launches, st.isMessage_core, hst] at hlaunches
    rw [step_world]
    refine ⟨⟨?_, ?_⟩, fun m hm => ?_, fun l hl => absurd (hlaunches.of_append l hl) (by simp)⟩
    · obtain h | ⟨params, hcore, h⟩ := h.trusted
      · exact h.trans hs.untrusted
      · rw [Step.grantsTrust, hcore] at htrust
        exact h.trans htrust
    · rw [h.cache]
      exact st.core.sets_safe hs
    · obtain h | ⟨_, h⟩ := hsent.of_append m hm
      · cases m <;> first | rfl | cases h
      · cases h

theorem fresh_guarded (files : Files) (home : String) (client : Client)
    (reply : List Command → Command → Reply) (config : ServerConfig) (logger : Logger)
    (limits : Limits) : (fresh files home client reply config logger limits).world.Guarded :=
  ⟨rfl, fun _ hf => absurd hf List.not_mem_nil⟩

/-! ## Runs -/

/-- As long as trust has not been granted, every process runs the bundled module that is configured
and is asked nothing that settings choose, and package managers are neither started nor asked
for. -/
theorem untrusted_confined (files : Files) (home : String) (client : Client)
    (reply : List Command → Command → Reply) (config : ServerConfig) (logger : Logger)
    (limits : Limits) (before : List Step) (st : Step)
    (hmessages : ∀ st' ∈ before ++ [st], st'.isMessage = true)
    (htrust : ∀ st' ∈ before ++ [st], st'.grantsTrust = false) :
    let s := (run (fresh files home client reply config logger limits) before).1
    (∀ l ∈ (step s st).2.launches, l.Confined s.world.config.bundledPrettierPath) ∧
      ∀ m ∈ (step s st).2.sent, m.asksManager = false := by
  intro s
  have hguarded : s.world.Guarded := by
    refine run_invariant (P := fun s => s.world.Guarded)
      (Q := fun st => st.isMessage = true ∧ st.grantsTrust = false)
      (fun s st hst hs => (step_confined hs hst.1 hst.2).1)
      (fresh_guarded files home client reply config logger limits) fun st' hst' => ?_
    have hmem := List.mem_append_left [st] hst'
    exact ⟨hmessages st' hmem, htrust st' hmem⟩
  have hmem : st ∈ before ++ [st] := List.mem_append_right before List.mem_cons_self
  obtain ⟨_, hsent, hlaunches⟩ := step_confined hguarded (hmessages st hmem) (htrust st hmem)
  exact ⟨hlaunches, hsent⟩

/-- Files with a formatter in the directory `/b`. -/
def formatterFiles : Files :=
  ({} : Files).write "/b/package.json" (.file "\x7b\"name\":\"prettier\"\x7d".toUTF8.toList)

/-- A formatter that makes `b` of every text. -/
def formatterReply (_ : List Command) : Command → Reply
  | .node _ _ "format" => .finished "\x7b\"result\":\"b\"\x7d".toUTF8.toList [] 0
  | .node _ _ "getFileInfo" =>
    .finished "\x7b\"result\":\x7b\"inferredParser\":\"babel\"\x7d\x7d".toUTF8.toList [] 0
  | _ => .finished "\x7b\"result\":null\x7d".toUTF8.toList [] 0

/-- A client that answers every fetch at once with the same settings. -/
def clientAnswering (settings : Fields) : Client where
  settings _ _ := .answered (.ok (.obj settings))
  packageManager _ _ := .ok .null

/-- A session with a bundled formatter and a client with these settings. -/
def bundledSession (settings : Fields) : Session :=
  fresh formatterFiles "/" (clientAnswering settings) formatterReply
    { bundledPrettierPath := .str "/b" } {} {}

theorem untrusted_confined_to_bundled :
    let settings := [("prettierPath", .str "/evil"), ("ignorePath", .str "/evil/ignore"),
      ("resolveGlobalModules", .bool true)]
    let s := (run (bundledSession settings) [.openDocument "file:///a.js" "a" none none]).1
    let report := (step s (.format "file:///a.js")).2
    report.launches.length = 4 ∧
      (∀ l ∈ report.launches, l.Confined s.world.config.bundledPrettierPath) ∧
      ∀ m ∈ report.sent, m.asksManager = false := by
  refine ⟨by decide +kernel, ?_⟩
  exact untrusted_confined formatterFiles "/" _ formatterReply _ _ _
    [.openDocument "file:///a.js" "a" none none] (.format "file:///a.js") (by decide) (by decide)

end Session

end FormatServer
