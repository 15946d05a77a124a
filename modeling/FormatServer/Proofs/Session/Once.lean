import FormatServer.Proofs.Session.Untrusted
import FormatServer.Proofs.World.Ledger

/-!
# What a session asks once

In a session every engine reads out its languages once, and every package manager is asked for its
root once; what they have told is used from then on (`AsksOnce`). A question that has not been answered
is asked again. Engines themselves are made once for each module, even if lookups go on side by side
(`asks_once`).
-/

set_option autoImplicit false

namespace FormatServer

open Act Installation

/-- What a process has printed is UTF-8, or it could not be started. The system takes every command
that asks for a root as one, so that no such process is malformed. -/
def Reply.IsUtf8 : Reply → Prop
  | .notStarted _ => True
  | .malformed _ => False
  | .finished stdout _ _ => (Text.decode? stdout).isSome = true

theorem Reply.root?_of_isUtf8 {reply : Reply} (h : reply.IsUtf8) (below : Option String) :
    ∃ root?, reply.root? below = .ok root? := by
  cases reply with
  | notStarted reason => exact ⟨none, rfl⟩
  | malformed reason => exact h.elim
  | finished stdout stderr exitCode =>
    obtain ⟨cs, hcs⟩ := Option.isSome_iff_exists.1 h
    dsimp only [root?]
    split
    · unfold printedRoot
      split
      · exact ⟨none, rfl⟩
      · rw [hcs]
        exact ⟨_, rfl⟩
    · exact ⟨none, rfl⟩

namespace Session

/-! ## Transcripts -/

/-- The processes that run in the steps of a session, with their replies. -/
def transcript (s : Session) : List Step → List Exchange
  | [] => []
  | st :: sts =>
    s.world.processes.exchanges ((step s st).2.launches.map Launch.command) ++
      transcript (step s st).1 sts

theorem transcript_append (s : Session) (sts more : List Step) :
    s.transcript (sts ++ more) = s.transcript sts ++ (run s sts).1.transcript more := by
  induction sts generalizing s with
  | nil => rfl
  | cons st sts ih =>
    show _ ++ (step s st).1.transcript (sts ++ more) = (_ ++ _) ++ _
    rw [ih, List.append_assoc]
    rfl

/-- What processes have told a session so far, and what becomes of it however the session goes
on. -/
structure AsksOnce (s₀ : Session) (sts : List Step) : Prop where
  engines : Distinct (run s₀ sts).1.world.engines
  /-- Every engine reads out its languages at most once. -/
  languages_once : ∀ modulePath,
    (s₀.transcript sts).countP (·.answers s₀.world.limits (.languages modulePath)) ≤ 1
  /-- What it has read out is used from then on, and it is not run for them any more. -/
  languages_kept : ∀ e : Engine, ∀ table, ∀ x ∈ s₀.transcript sts,
    x.tells s₀.world.limits (.languages e.modulePath) (.languages table) → ∀ more,
      let v := (run s₀ (sts ++ more)).1.world
      e.languageTable v = (.ok table, v) ∧
        (s₀.transcript (sts ++ more)).countP (·.asks (.languages e.modulePath)) =
          (s₀.transcript sts).countP (·.asks (.languages e.modulePath))
  /-- Until it has, it is run whenever it is asked. -/
  languages_again : ∀ e : Engine,
    (∀ x ∈ s₀.transcript sts, x.answers s₀.world.limits (.languages e.modulePath) = false) →
      let v := (run s₀ sts).1.world
      ∃ stdin, (e.languageTable v).2.journal.launches =
        v.journal.launches ++ [⟨.node e.nodePath e.modulePath "getSupportInfo", stdin⟩]
  /-- Every package manager is run at most once, if it prints UTF-8. -/
  root_once : ∀ manager, (∀ x ∈ s₀.transcript sts, x.asks (.root manager) → x.reply.IsUtf8) →
    (s₀.transcript sts).countP (·.asks (.root manager)) ≤ 1
  /-- Then it has told its root, or that it has none, and this is used from then on. -/
  root_kept : ∀ manager, ∀ x ∈ s₀.transcript sts, x.asks (.root manager) → x.reply.IsUtf8 →
    ∃ arguments below root?, rootCommand? manager = some (arguments, below) ∧
      x.reply.root? below = .ok root? ∧ ∀ more,
        let v := (run s₀ (sts ++ more)).1.world
        v.globalRoots.lookup manager = some root? ∧
          globalRoot (.str manager) v = (.ok root?, v) ∧
          (s₀.transcript (sts ++ more)).countP (·.asks (.root manager)) =
            (s₀.transcript sts).countP (·.asks (.root manager))

/-- Every step goes on with the ledger. -/
theorem step_ledger {s : Session} {limits : Limits} {T : List Exchange}
    (h : Ledger limits T s.world) (st : Step) : Ledger limits
      (T ++ s.world.processes.exchanges ((step s st).2.launches.map Launch.command))
      (step s st).1.world := by
  have hlaunches := step_launches s st
  rw [step_world] at hlaunches ⊢
  by_cases hst : ∃ reply, st.core = .processes reply
  · -- processes answer differently from now on, but none has run
    obtain ⟨reply, hcore⟩ := hst
    rw [hcore] at hlaunches ⊢
    have hnone : (step s st).2.launches = [] := List.append_right_eq_self.1 hlaunches.symm
    rw [hnone]
    have hkept : Ledger limits T (take (.processes reply) s).2.world :=
      h.keeps rfl (fun q => by cases q <;> rfl) (.ofEq rfl)
    simpa [Processes.exchanges] using hkept
  · have hmoves := take_moves follows_carries st.core
      (fun reply hcore => hst ⟨reply, st.core_core ▸ hcore⟩) s
    obtain ⟨ls, hls, -, hledger⟩ := hmoves
    rw [hls] at hlaunches
    rw [← List.append_cancel_left hlaunches]
    exact hledger limits T h

theorem run_ledger {s : Session} {limits : Limits} {T : List Exchange}
    (h : Ledger limits T s.world) (sts : List Step) :
    Ledger limits (T ++ s.transcript sts) (run s sts).1.world := by
  induction sts generalizing s T with
  | nil => simpa [transcript, run] using h
  | cons st sts ih =>
    have hrest := ih (step_ledger h st)
    rwa [List.append_assoc] at hrest

theorem fresh_ledger (files : Files) (home : String) (client : Client)
    (reply : List Command → Command → Reply) (config : ServerConfig) (logger : Logger)
    (limits : Limits) :
    Ledger limits [] (fresh files home client reply config logger limits).world where
  limits_eq := rfl
  once := .nil
  finding_iff q found := by cases q <;> simp [World.finding?, fresh]
  known _ hx := nomatch hx
  distinct := List.nodup_nil

/-- A package manager that prints UTF-8 tells its root, or that it has none. -/
theorem tells_of_isUtf8 {limits : Limits} {T : List Exchange} {w : World} (h : Ledger limits T w)
    {x : Exchange} (hx : x ∈ T) {manager : String} (hasks : x.asks (.root manager))
    (hutf8 : x.reply.IsUtf8) :
    ∃ arguments below root?, rootCommand? manager = some (arguments, below) ∧
      x.reply.root? below = .ok root? ∧
        x.tells limits (.root manager) (.root root?) := by
  obtain ⟨⟨arguments, below⟩, hcommand⟩ := Option.isSome_iff_exists.1 (h.known x hx manager hasks)
  obtain ⟨root?, hreply⟩ := Reply.root?_of_isUtf8 hutf8 below
  refine ⟨arguments, below, root?, hcommand, hreply, hasks, ?_⟩
  simp only [Question.finding?, hcommand, Option.bind_some, hreply]
  rfl

/-- No session asks again what it has been told. -/
theorem fresh_asksOnce (files : Files) (home : String) (client : Client)
    (reply : List Command → Command → Reply) (config : ServerConfig) (logger : Logger)
    (limits : Limits) (sts : List Step) :
    AsksOnce (fresh files home client reply config logger limits) sts := by
  have hfresh : Ledger (fresh files home client reply config logger limits).world.limits [] _ :=
    fresh_ledger files home client reply config logger limits
  generalize fresh files home client reply config logger limits = s₀ at hfresh
  have hrun (sts : List Step) : Ledger s₀.world.limits (s₀.transcript sts) (run s₀ sts).1.world :=
    run_ledger hfresh sts
  have hmore (more : List Step) := hrun (sts ++ more)
  simp only [transcript_append] at hmore
  constructor
  case engines => exact (hrun sts).distinct
  case languages_once => exact fun modulePath => (hrun sts).countP_answers_le _
  case languages_kept =>
    intro e table x hx htells more v
    have hfinding := ((hmore more).finding_iff _ _).2 ⟨x, List.mem_append_left _ hx, htells⟩
    refine ⟨Engine.languageTable_of_finding hfinding, ?_⟩
    rw [transcript_append]
    exact (hmore more).countP_asks_append hx htells
  case languages_again =>
    intro e hnone v
    have hunknown : v.languages.lookup e.modulePath = none := by
      cases hknown : v.languages.lookup e.modulePath with
      | none => rfl
      | some table =>
        have hfinding : v.finding? (.languages e.modulePath) = some (.languages table) := by
          simp only [World.finding?, hknown, Option.map_some]
        obtain ⟨x, hx, htells⟩ := ((hrun sts).finding_iff _ _).1 hfinding
        have hanswers := (x.answers_iff _ _).2 ⟨_, htells⟩
        rw [hnone x hx] at hanswers
        cases hanswers
    obtain ⟨stdin, records, hread⟩ := Engine.languageTable_apply hunknown
    rw [hread]
    exact ⟨stdin, rfl⟩
  case root_once =>
    intro manager hutf8
    refine (hrun sts).countP_asks_le fun x hx hasks => ?_
    obtain ⟨_, _, root?, -, -, htells⟩ := tells_of_isUtf8 (hrun sts) hx hasks (hutf8 x hx hasks)
    exact ⟨_, htells⟩
  case root_kept =>
    intro manager x hx hasks hutf8
    obtain ⟨arguments, below, root?, hcommand, hreply, htells⟩ :=
      tells_of_isUtf8 (hrun sts) hx hasks hutf8
    refine ⟨arguments, below, root?, hcommand, hreply, fun more => ?_⟩
    have hfinding := ((hmore more).finding_iff _ _).2 ⟨x, List.mem_append_left _ hx, htells⟩
    obtain ⟨hkept, hused⟩ := globalRoot_of_finding (by rw [hcommand]; rfl) hfinding
    refine ⟨hkept, hused, ?_⟩
    rw [transcript_append]
    exact (hmore more).countP_asks_append hx htells

/-- However lookups go on side by side, a module has one engine, and keeps it; without a pause they
are the lookups of a session. A session does not ask again what it has been told. -/
theorem asks_once (w : World) (turns more : List Turn) (files : Files) (home : String)
    (client : Client) (reply : List Command → Command → Reply) (config : ServerConfig)
    (logger : Logger) (limits : Limits) (sts : List Step) :
    let r := (Resolver.fresh w).run turns
    (∀ path settings, engine? path settings =
      (do return (← (lookup path settings).run).map Prod.snd)) ∧
    r.Shared ∧ r.world.engines <+: (r.run more).world.engines ∧
    AsksOnce (fresh files home client reply config logger limits) sts :=
  ⟨fun path settings => (lookup_run path settings).symm, Resolver.run_shared w turns,
    (Resolver.run_good (Resolver.run_good (Resolver.fresh_good w) turns).1 more).2,
    fresh_asksOnce files home client reply config logger limits sts⟩

/-- Two lookups side by side that come to the bundled module. -/
example : ((Resolver.fresh (bundledSession []).world).run [.look "/a.js" {}, .look "/b.js" {},
    .go 0, .go 1, .go 1, .go 0, .go 0, .go 1, .go 1, .go 0]).world.engines.map Engine.modulePath =
    ["/b"] := by
  decide +kernel

end Session

end FormatServer
