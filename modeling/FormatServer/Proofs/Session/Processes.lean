import FormatServer.Proofs.Session.Fetches
import FormatServer.Proofs.World.Listed

/-!
# The processes that a session starts

A step starts processes for the settings that it uses only (`Session.Uses`): package managers where
they ask for global modules and name no module, and the methods of modules that are installed when the
step looks for one (`step_listed`). An engine that was found before runs where it was configured to run
then (`run_nodePath`), so that every process of a session is one of a fixed list
(`processes_listed`).
-/

set_option autoImplicit false

namespace FormatServer

open Act

/-- The settings that a step hands over. -/
def Step.handed? (st : Step) : Option Json :=
  match st.core with
  | .engine _ payload => payload
  | .localConfig _ payload => some payload
  | _ => none

/-- The program may run an engine: it is configured, or an engine has been found that it runs. -/
def World.RunsOn (w : World) (program : Json) : Prop :=
  program = w.config.nodePath ∨ ∃ e ∈ w.engines, e.nodePath = program

/-- A world that is equipped stays so, and starts listed processes only. -/
def World.StartsListed (limits : Limits) (files : Files) (N : Json → Prop) (S : Settings → Prop)
    (w w' : World) : Prop :=
  w.Equipped limits files N → w'.Equipped limits files N ∧
    Adds (Launch.Listed limits files N S) w.journal.launches w'.journal.launches

namespace World

variable {limits : Limits} {files : Files} {N : Json → Prop} {S : Settings → Prop}

theorem equipped_self (w : World) : w.Equipped w.limits w.files w.RunsOn where
  reads := ⟨rfl, rfl⟩
  config := .inl rfl
  engines e he := .inr ⟨e, he, rfl⟩

theorem StartsListed.moving : Moving (StartsListed limits files N S) where
  refl w hw := ⟨hw, .nothing⟩
  trans h h' hw := by
    obtain ⟨hu, hlaunches⟩ := h hw
    obtain ⟨hv, hlaunches'⟩ := h' hu
    exact ⟨hv, hlaunches.trans hlaunches'⟩

theorem Frame.startsListed {M : Message → Prop} {w w' : World}
    (h : w.Equipped limits files N → Frame M (Launch.Listed limits files N S) w w') :
    StartsListed limits files N S w w' :=
  fun hw => ⟨(h hw).equipped hw, (h hw).launches⟩

/-- A change of what processes have nothing to do with. -/
theorem StartsListed.ofEq {w w' : World} (hlimits : w'.limits = w.limits)
    (hfiles : w'.files = w.files) (hconfig : w'.config = w.config) (hengines : w'.engines = w.engines)
    (hlaunches : w'.journal.launches = w.journal.launches) :
    StartsListed limits files N S w w' := fun hw =>
  ⟨⟨⟨hlimits.trans hw.reads.limits, hfiles.trans hw.reads.files⟩,
    by rw [hconfig]; exact hw.config, by rw [hengines]; exact hw.engines⟩, .ofEq hlaunches⟩

end World

theorem Continuation.resume_startsListed {limits : Limits} {files : Files} {N : Json → Prop}
    {S : Settings → Prop} (rest : Continuation) {outcome : Resolution}
    (h : ∀ settings, outcome = .ok settings → S settings) :
    Moves (World.StartsListed limits files N S) (rest.resume outcome) := fun _ =>
  World.Frame.startsListed fun hw => rest.resume_frame
    (fun settings hs =>
      World.formats_listed (M := fun _ => True) (fun _ => trivial) (h settings hs)) hw
    fun _ _ => trivial

namespace Session

/-- The settings that a step uses: those that its request shares, those for which tasks have waited
whose turn comes, or those that it hands over. -/
inductive Uses (s : Session) (st : Step) (settings : Settings) : Prop
  | shared {need : Need} {n : Nat} : s.need? st = some need → s.world.share need = .ok n →
      (s.world.asking need).outcome? n = some (.ok settings) → Uses s st settings
  | awaited {fetch : Nat} : st.core = .resume fetch →
      s.world.cache.outcome? fetch = some (.ok settings) → Uses s st settings
  | handed {payload : Json} : st.handed? = some payload → Settings.ofClient payload = .ok settings →
      Uses s st settings

variable {N : Json → Prop}

/-! ## Steps -/

theorem request_startsListed {s : Session} {st : Step} {r : Request} (hr : s.requestOf st = some r) :
    World.StartsListed s.world.limits s.world.files N (s.Uses st) s.world (r.run s.world).2 := by
  have hR := @World.StartsListed.moving s.world.limits s.world.files N (s.Uses st)
  refine r.run_moves hR ?_ (fun uri => ?_) fun rest outcome v _ houtcome => ?_
  · exact World.Frame.startsListed fun _ => r.announce_frame (M := fun _ => True) s.world
  · exact World.fetchSettings_moves hR.refl uri fun w key => .ofEq rfl rfl rfl rfl rfl
  · refine rest.resume_startsListed (fun settings hs => ?_) v
    obtain ⟨uri, u, n, ha, hf, ho⟩ := houtcome settings hs
    have hneed : ∃ need, r.need? = some need := by
      cases hneed : r.need? with
      | some need => exact ⟨need, rfl⟩
      | none =>
        obtain ⟨e, hkey⟩ := Request.need_none hneed (Request.announced_of_announce ha)
        have hfetched := World.fetched uri u
        rw [hf] at hfetched
        cases hfetched with
        | shared hkey' _ => rw [hkey] at hkey'; cases hkey'
        | sent hkey' _ _ => rw [hkey] at hkey'; cases hkey'
    obtain ⟨need, hneed⟩ := hneed
    obtain ⟨_, _, hshare, hcache, _⟩ := Request.asked hneed ha hf
    have hneed' : s.need? st = some need := by rw [need?, hr]; exact hneed
    refine .shared hneed' (n := n) ?_ ?_
    · cases h : s.world.share need with
      | ok m => rw [h] at hshare; cases hshare; rfl
      | error f => rw [h] at hshare; cases hshare
    · rw [← hcache, ← hs]
      exact ho

theorem resume_startsListed (s : Session) {st : Step} {fetch : Nat} (hst : st.core = .resume fetch) :
    World.StartsListed s.world.limits s.world.files N (s.Uses st) s.world
      (resume fetch s).2.world := by
  have hR := @World.StartsListed.moving s.world.limits s.world.files N (s.Uses st)
  rw [resume_apply]
  cases ho : s.world.cache.outcome? fetch with
  | none => exact hR.refl _
  | some outcome =>
    have hresume : ∀ rest : Continuation, Moves
        (World.StartsListed s.world.limits s.world.files N (s.Uses st)) (rest.resume outcome) :=
      fun rest => rest.resume_startsListed fun settings hs => .awaited hst (hs ▸ ho)
    exact (resumeTasks_resumed hR (J := fun _ => True) (fun _ _ => trivial)
      (fun rest u _ => hresume rest u) s.tasks trivial).1

/-- A step that is given settings looks for a formatter with these. -/
theorem handed_startsListed {s : Session} {st : Step} {payload : Json}
    (hst : st.handed? = some payload) :
    World.StartsListed s.world.limits s.world.files N (s.Uses st) s.world
      (take st.core s).2.world := by
  have hR := @World.StartsListed.moving s.world.limits s.world.files N (s.Uses st)
  have looks : ∀ {α : Type} {x : Settings → Act World α} {f : α → Answer},
      (∀ settings, Settings.ofClient payload = .ok settings →
        World.StartsListed s.world.limits s.world.files N (s.Uses st) s.world (x settings s.world).2) →
      World.StartsListed s.world.limits s.world.files N (s.Uses st) s.world ((do
        let settings ← Act.ofExcept (Settings.ofClient payload)
        reply (f (← onWorld (x settings))) : Act Session Progress) s).2.world := by
    intro α x f hx
    cases hs : Settings.ofClient payload with
    | error e => exact hR.refl _
    | ok settings =>
      rw [bind_ok (rfl : Act.ofExcept (.ok settings) s = (.ok settings, s)), reply_apply]
      exact hx settings hs
  have hformats : ∀ settings, Settings.ofClient payload = .ok settings →
      World.Formats (fun _ => True) (Launch.Listed s.world.limits s.world.files N (s.Uses st))
        (World.Equipped s.world.limits s.world.files N)
        (Installation.Installed s.world.limits s.world.files) (fun _ => True)
        settings := fun settings hs => World.formats_listed (fun _ => trivial) (.handed hst hs)
  unfold Step.handed? at hst
  split at hst
  · next path payload? hcore =>
    rw [hcore, hst]
    exact looks fun settings hs => World.Frame.startsListed fun hw =>
      ((hformats settings hs).steady.engine path _ hw).moves
  · next d payload' hcore =>
    cases hst
    rw [hcore]
    exact looks fun settings hs => World.Frame.startsListed fun hw =>
      (hformats settings hs).steady.localConfig d _ hw
  · cases hst

theorem take_startsListed (s : Session) (st : Step) :
    let w := (take st.core s).2.world
    (∀ e ∈ w.engines, s.world.RunsOn e.nodePath) ∧
      Adds (Launch.Listed s.world.limits s.world.files s.world.RunsOn (s.Uses st))
        s.world.journal.launches w.journal.launches := by
  have listed : World.StartsListed s.world.limits s.world.files s.world.RunsOn (s.Uses st) s.world
      (take st.core s).2.world → _ := fun h =>
    And.imp_left World.Equipped.engines (h s.world.equipped_self)
  obtain ⟨fetch, hcore⟩ | ⟨id, hcore⟩ | ⟨r, hr, htake⟩ | ⟨_, haside⟩ := take_cases s st
  · refine listed ?_
    have hresume := resume_startsListed (N := s.world.RunsOn) s hcore
    rwa [hcore]
  · obtain ⟨p, ts, hcancel, _⟩ := cancel_state id s
    have htake : take st.core s = (p, { s with tasks := ts }) := by rw [hcore]; exact hcancel
    rw [htake]
    exact ⟨fun e he => .inr ⟨e, he, rfl⟩, .nothing⟩
  · refine listed ?_
    rw [htake]
    exact request_startsListed hr
  · cases hhanded : st.handed? with
    | some payload => exact listed (handed_startsListed hhanded)
    | none =>
      -- what is left starts nothing
      refine ⟨fun e he => (haside.engines e he).elim (fun he => .inr ⟨e, he, rfl⟩) .inl, ?_⟩
      cases hmessage : st.isMessage with
      | true =>
        exact haside.launches.mono fun _ h => by rw [Step.isMessage_core, hmessage] at h; cases h
      | false =>
        obtain ⟨folderUri, hcore⟩ : ∃ folderUri, st.core = .packageManager folderUri := by
          unfold Step.isMessage at hmessage
          unfold Step.handed? at hhanded
          split at hmessage <;> simp_all
        rw [hcore]
        refine (World.Frame.launches (M := fun _ => True) ?_).mono fun _ => False.elim
        show World.Frame _ _ s.world ((do
          reply (.path (← onWorld (World.askPackageManager folderUri)))) s).2.world
        rw [reply_apply]
        exact askPackageManager_frame trivial s.world

/-- The processes that a step starts are listed, and the engines that it finds run on what engines
ran on before. -/
theorem step_listed (s : Session) (st : Step) :
    (∀ e ∈ (step s st).1.world.engines, s.world.RunsOn e.nodePath) ∧
      ∀ l ∈ (step s st).2.launches,
        l.Listed s.world.limits s.world.files s.world.RunsOn (s.Uses st) := by
  obtain ⟨hengines, hlaunches⟩ := take_startsListed s st
  rw [← step_world] at hengines hlaunches
  rw [step_launches] at hlaunches
  exact ⟨hengines, hlaunches.of_append⟩

/-! ## Runs -/

/-- What engines run on was configured at some time, or engines ran on it when the session began. -/
theorem run_runsOn {s : Session} {sts : List Step} {program : Json}
    (h : (run s sts).1.world.RunsOn program) :
    (∃ e ∈ s.world.engines, e.nodePath = program) ∨
      ∃ earlier, earlier <+: sts ∧ program = (run s earlier).1.world.config.nodePath := by
  induction sts generalizing s with
  | nil => exact h.symm.imp_right fun h => ⟨[], List.nil_prefix, h⟩
  | cons st sts ih =>
    obtain ⟨e, he, rfl⟩ | ⟨earlier, hprefix, hprogram⟩ := ih h
    · obtain hconfig | hold := (step_listed s st).1 e he
      · exact .inr ⟨[], List.nil_prefix, hconfig⟩
      · exact .inl hold
    · exact .inr ⟨st :: earlier, List.cons_prefix_cons.2 ⟨rfl, hprefix⟩, hprogram⟩

/-- Whatever happens to a session, every process that it starts prints the global root of a known
package manager, under settings that ask for global modules and name no module, or calls a method of
a module that is installed at this step, with a program that is or was configured. -/
theorem processes_listed (files : Files) (home : String) (client : Client)
    (reply : List Command → Command → Reply) (config : ServerConfig) (logger : Logger)
    (limits : Limits) (before : List Step) (st : Step) :
    let s₀ := fresh files home client reply config logger limits
    let s := (run s₀ before).1
    let configured (program : Json) := ∃ earlier, earlier <+: before ∧
      program = (run s₀ earlier).1.world.config.nodePath
    ∀ l ∈ (step s st).2.launches, l.Listed s.world.limits s.world.files configured (s.Uses st) := by
  intro s₀ s configured l hl
  refine ((step_listed s st).2 l hl).mono (fun program hprogram => ?_) fun _ h => h
  obtain ⟨e, he, _⟩ | h := run_runsOn hprogram
  · cases he
  · exact h

/-- The package manager that the settings name is asked for its root if it is known, and is not run
if it is not. -/
example :
    let client (manager : String) : Client := ⟨fun _ _ => .answered (.ok (.obj
      [("resolveGlobalModules", .bool true), ("packageManager", .str manager)])), fun _ _ => .ok .null⟩
    let started (manager : String) : List (List String) :=
      let s := (run (fresh {} "/" (client manager) default {} {} {})
        [.trust (.value (.obj [("isTrusted", .bool true)]))]).1
      (step s (.provideEdits ⟨"file:///a.js", "a", "javascript", none⟩ {})).2.launches.map
        fun l => l.command.argv.map Json.display
    started "yarn" = [["yarn", "global", "dir"]] ∧ started "rm" = [] := by
  decide +kernel

end Session

end FormatServer
