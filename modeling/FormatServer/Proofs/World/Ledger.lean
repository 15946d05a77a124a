import FormatServer.Proofs.Installation.Interleaved
import FormatServer.Proofs.LocalConfiguration.Inquiry
import FormatServer.Proofs.Session.Moves

/-!
# What is asked once

A server remembers what package managers say of their roots, be it that they have none, and the
languages that an engine has read out. The `Ledger` sets what a world remembers against all processes
that have run, with their replies: it remembers what these have told, and nothing has been asked again
that had been told before. What is asked in vain tells nothing. All that requests are made of keeps the
ledger (`follows_carries`).
-/

set_option autoImplicit false

namespace FormatServer

open Act Installation

/-! ## Questions -/

/-- What the reply to a question is remembered of. -/
inductive Question where
  | root (manager : String)
  | languages (modulePath : String)
  deriving DecidableEq

/-- What is remembered of it. -/
inductive Finding where
  | root (root? : Option String)
  | languages (table : List Language)

/-- The question that a command puts, if it puts one. -/
def Command.question? : Command → Option Question
  | .node _ modulePath method =>
    if method = "getSupportInfo" then some (.languages modulePath) else none
  | .manager program _ => some (.root program)

/-- The root in the reply of a package manager. -/
def Reply.root? (below : Option String) : Reply → Except Fault (Option String)
  | .notStarted _ => .ok none
  | .malformed reason => .error (.commandMalformed reason)
  | .finished stdout _ exitCode => if exitCode = 0 then printedRoot stdout below else .ok none

/-- The languages in the reply of an engine. -/
def Engine.tableIn (e : Engine) (limits : Limits) (reply : Reply) : Except Fault (List Language) :=
  (e.answer limits "getSupportInfo" reply).bind Language.tableOfEngine

/-- What a reply tells. That there is no root is told too; a fault tells nothing. -/
def Question.finding? (limits : Limits) : Question → Reply → Option Finding
  | .root manager, reply => (rootCommand? manager).bind fun (_, below) =>
    (reply.root? below).toOption.map .root
  | .languages modulePath, reply =>
    (Engine.tableIn { modulePath } limits reply).toOption.map .languages

/-- A process that has run. -/
structure Exchange where
  command : Command
  reply : Reply

def Exchange.asks (x : Exchange) (q : Question) : Prop := x.command.question? = some q

instance (x : Exchange) (q : Question) : Decidable (x.asks q) := inferInstanceAs (Decidable (_ = _))

/-- The process has answered the question. -/
def Exchange.tells (x : Exchange) (limits : Limits) (q : Question) (found : Finding) : Prop :=
  x.asks q ∧ q.finding? limits x.reply = some found

/-- Whether it has. -/
def Exchange.answers (x : Exchange) (limits : Limits) (q : Question) : Bool :=
  x.asks q && (q.finding? limits x.reply).isSome

theorem Exchange.answers_iff (x : Exchange) (limits : Limits) (q : Question) :
    x.answers limits q = true ↔ ∃ found, x.tells limits q found := by
  simp [answers, tells, Option.isSome_iff_exists]

/-- Commands with their replies, one after another. -/
def Processes.exchanges (p : Processes) : List Command → List Exchange
  | [] => []
  | c :: cs => ⟨c, p.reply p.started c⟩ :: exchanges { p with started := p.started ++ [c] } cs

theorem Processes.exchanges_append (p : Processes) (cs cs' : List Command) :
    p.exchanges (cs ++ cs') =
      p.exchanges cs ++ exchanges { p with started := p.started ++ cs } cs' := by
  induction cs generalizing p with
  | nil => simp [exchanges]
  | cons c cs ih => simp [exchanges, ih, List.append_assoc]

/-! ## The ledger -/

/-- What a world remembers. -/
def World.finding? (w : World) : Question → Option Finding
  | .root manager => (w.globalRoots.lookup manager).map .root
  | .languages modulePath => (w.languages.lookup modulePath).map .languages

/-- A world remembers what processes have told, and none was asked what had been told before. -/
structure Ledger (limits : Limits) (T : List Exchange) (w : World) : Prop where
  limits_eq : w.limits = limits
  once : T.Pairwise fun x y => ∀ q found, x.tells limits q found → ¬ y.asks q
  finding_iff : ∀ q found, w.finding? q = some found ↔ ∃ x ∈ T, x.tells limits q found
  /-- Only known package managers are asked. -/
  known : ∀ x ∈ T, ∀ manager, x.asks (.root manager) → (rootCommand? manager).isSome = true
  distinct : Distinct w.engines

variable {limits : Limits} {T : List Exchange} {w w' : World}

theorem Ledger.keeps (h : Ledger limits T w) (hlimits : w'.limits = w.limits)
    (hfinding : ∀ q, w'.finding? q = w.finding? q) (hengines : Grown w w') : Ledger limits T w' where
  limits_eq := hlimits.trans h.limits_eq
  once := h.once
  finding_iff q found := by rw [hfinding, h.finding_iff]
  known := h.known
  distinct := hengines.distinct h.distinct

/-- A process that is asked what is not remembered, where what it tells is remembered. -/
theorem Ledger.snoc (h : Ledger limits T w) {x : Exchange} (hlimits : w'.limits = w.limits)
    (hunasked : ∀ q, x.asks q → w.finding? q = none)
    (hfinding : ∀ q found,
      w'.finding? q = some found ↔ w.finding? q = some found ∨ x.tells w.limits q found)
    (hknown : ∀ manager, x.asks (.root manager) → (rootCommand? manager).isSome = true)
    (hengines : w'.engines = w.engines) : Ledger limits (T ++ [x]) w' where
  limits_eq := hlimits.trans h.limits_eq
  once := by
    refine List.pairwise_append.2 ⟨h.once, List.pairwise_singleton _ _, ?_⟩
    intro y hy x' hx' q found hq hasks
    rw [List.mem_singleton.1 hx'] at hasks
    have htold := (h.finding_iff q found).2 ⟨y, hy, hq⟩
    rw [hunasked q hasks] at htold
    cases htold
  finding_iff q found := by
    rw [hfinding, h.finding_iff, h.limits_eq]
    simp only [List.mem_append, List.mem_singleton, or_and_right, exists_or, exists_eq_left]
  known y hy := by
    obtain hy | hy := List.mem_append.1 hy
    · exact h.known y hy
    · rw [List.mem_singleton.1 hy]
      exact hknown
  distinct := by
    rw [hengines]
    exact h.distinct

theorem countP_le_one {α : Type} {R : α → α → Prop} {p : α → Bool} {l : List α} (h : l.Pairwise R)
    (hp : ∀ a ∈ l, ∀ b, p a = true → p b = true → ¬ R a b) : l.countP p ≤ 1 := by
  induction h with
  | nil => exact Nat.zero_le 1
  | @cons a l ha _ ih =>
    rw [List.countP_cons]
    split
    · next hpa =>
      have hnone : l.countP p = 0 := List.countP_eq_zero.2 fun b hb hpb =>
        hp a (.head _) b hpa hpb (ha b hb)
      rw [hnone]
    · exact ih fun a' ha' => hp a' (.tail _ ha')

/-- A question is answered at most once. -/
theorem Ledger.countP_answers_le (h : Ledger limits T w) (q : Question) :
    T.countP (·.answers limits q) ≤ 1 :=
  countP_le_one h.once fun x _ y hx hy honce => by
    obtain ⟨found, hfound⟩ := (x.answers_iff limits q).1 hx
    obtain ⟨_, hasks, _⟩ := (y.answers_iff limits q).1 hy
    exact honce q found hfound hasks

/-- It is put at most once if every process that is asked answers it. -/
theorem Ledger.countP_asks_le (h : Ledger limits T w) {q : Question}
    (hall : ∀ x ∈ T, x.asks q → ∃ found, x.tells limits q found) : T.countP (·.asks q) ≤ 1 :=
  countP_le_one h.once fun x hmem y hx hy honce => by
    obtain ⟨found, hfound⟩ := hall x hmem (by simpa using hx)
    exact honce q found hfound (by simpa using hy)

/-- After it has been answered it is not put any more. -/
theorem Ledger.countP_asks_append {T' : List Exchange} (h : Ledger limits (T ++ T') w) {x : Exchange}
    (hx : x ∈ T) {q : Question} {found : Finding} (hfound : x.tells limits q found) :
    (T ++ T').countP (·.asks q) = T.countP (·.asks q) := by
  have hnone : T'.countP (·.asks q) = 0 := List.countP_eq_zero.2 fun y hy hasks =>
    (List.pairwise_append.1 h.once).2.2 x hx y hy q found hfound (by simpa using hasks)
  rw [List.countP_append, hnone, Nat.add_zero]

/-! ## Keeping it -/

/-- The second world has come from the first one by processes that have run since, and by these the
ledger goes on. -/
def World.Follows (w w' : World) : Prop :=
  ∃ ls : List Launch, w'.journal.launches = w.journal.launches ++ ls ∧
    w'.processes =
      { w.processes with started := w.processes.started ++ ls.map Launch.command } ∧
    ∀ limits T, Ledger limits T w →
      Ledger limits (T ++ w.processes.exchanges (ls.map Launch.command)) w'

namespace World

theorem Follows.moving : Moving Follows where
  refl w := ⟨[], by simp, by simp, fun _ T h => by simpa [Processes.exchanges] using h⟩
  trans := by
    rintro w v u ⟨ls, hlaunches, hprocesses, hledger⟩ ⟨ls', hlaunches', hprocesses', hledger'⟩
    refine ⟨ls ++ ls', ?_, ?_, fun limits T h => ?_⟩
    · rw [hlaunches', hlaunches, List.append_assoc]
    · rw [hprocesses', hprocesses, List.map_append, ← List.append_assoc]
    · rw [List.map_append, Processes.exchanges_append, ← List.append_assoc]
      have h := hledger' _ _ (hledger _ T h)
      rwa [hprocesses] at h

/-- No process runs. -/
theorem Follows.quiet (hlaunches : w'.journal.launches = w.journal.launches)
    (hprocesses : w'.processes = w.processes) (hlanguages : w'.languages = w.languages)
    (hroots : w'.globalRoots = w.globalRoots) (hlimits : w'.limits = w.limits)
    (hengines : Grown w w') : Follows w w' := by
  refine ⟨[], by simp [hlaunches], by simp [hprocesses], fun limits T h => ?_⟩
  have hfinding : ∀ q, w'.finding? q = w.finding? q := by
    rintro (manager | modulePath)
    · simp only [finding?, hroots]
    · simp only [finding?, hlanguages]
  simpa [Processes.exchanges] using h.keeps hlimits hfinding hengines

/-- One process runs. -/
theorem Follows.one {l : Launch} (hlaunches : w'.journal.launches = w.journal.launches ++ [l])
    (hprocesses : w'.processes = { w.processes with started := w.processes.started ++ [l.command] })
    (hlimits : w'.limits = w.limits) (hengines : w'.engines = w.engines)
    (hunasked : ∀ q, l.command.question? = some q → w.finding? q = none)
    (hfinding : ∀ q found, w'.finding? q = some found ↔ w.finding? q = some found ∨
      Exchange.tells ⟨l.command, w.processes.reply w.processes.started l.command⟩ w.limits q found)
    (hknown : ∀ manager, l.command.question? = some (.root manager) →
      (rootCommand? manager).isSome = true) : Follows w w' :=
  ⟨[l], hlaunches, hprocesses, fun _ _ h => h.snoc hlimits hunasked hfinding hknown hengines⟩

end World

/-! ## Asking for a root -/

namespace Installation

theorem settleRoot_apply (manager : String) (arguments : List String) (below : Option String)
    (reply : Reply) (w : World) : ∃ records, settleRoot manager arguments below reply w =
      (reply.root? below, { w with journal := { w.journal with records } }) := by
  unfold settleRoot Reply.root?
  cases reply with
  | notStarted reason => exact ⟨_, rfl⟩
  | malformed reason => exact ⟨_, rfl⟩
  | finished stdout stderr exitCode =>
    dsimp only
    split
    · cases printedRoot stdout below with
      | error e => exact ⟨_, rfl⟩
      | ok root? => cases root? <;> exact ⟨_, rfl⟩
    · exact ⟨_, rfl⟩

theorem askRoot_apply (manager : String) (arguments : List String) (below : Option String)
    (w : World) :
    let command := Command.manager manager arguments
    ∃ read records, askRoot manager arguments below w =
      ((w.processes.reply w.processes.started command).root? below, { w with
        processes := { w.processes with started := w.processes.started ++ [command] }
        journal := { w.journal with
          launches := w.journal.launches ++ [(⟨command, read⟩ : Launch)], records } }) := by
  intro command
  rw [askRoot_eq, bind_ok (rfl : World.start command none w =
    (.ok (w.processes.reply w.processes.started command), _))]
  obtain ⟨records, hsettled⟩ := settleRoot_apply manager arguments below
    (w.processes.reply w.processes.started command) _
  exact ⟨_, records, hsettled⟩

/-- A root that is remembered is a finding more. -/
theorem finding_root {w w' : World} {manager : String} {root? : Option String}
    (hunknown : w.globalRoots.lookup manager = none)
    (hroots : w'.globalRoots = w.globalRoots ++ [(manager, root?)])
    (hlanguages : w'.languages = w.languages) (q : Question) (found : Finding) :
    w'.finding? q = some found ↔
      w.finding? q = some found ∨ q = .root manager ∧ found = .root root? := by
  cases q with
  | languages modulePath => simp [World.finding?, hlanguages]
  | root name =>
    simp only [World.finding?, hroots, List.lookup_append]
    by_cases hname : name = manager
    · subst hname
      simp [hunknown, eq_comm]
    · have hother : (name == manager) = false := by simpa using hname
      simp [List.lookup_cons, hother, hname]

theorem tells_root {manager : String} {arguments : List String} {below : Option String}
    (hcommand : rootCommand? manager = some (arguments, below)) (reply : Reply) (q : Question)
    (found : Finding) : Exchange.tells ⟨.manager manager arguments, reply⟩ limits q found ↔
      q = .root manager ∧ ∃ root?, reply.root? below = .ok root? ∧ found = .root root? := by
  unfold Exchange.tells Exchange.asks
  rw [show Command.question? (.manager manager arguments) = some (.root manager) from rfl,
    Option.some.injEq, eq_comm]
  refine and_congr_right fun hq => ?_
  subst hq
  simp only [Question.finding?, hcommand, Option.bind_some]
  cases reply.root? below <;> simp [Except.toOption, eq_comm]

/-- A package manager is not asked whose root is remembered. -/
theorem globalRoot_of_finding {manager : String} {root? : Option String} {w : World}
    (hknown : (rootCommand? manager).isSome = true)
    (h : w.finding? (.root manager) = some (.root root?)) :
    w.globalRoots.lookup manager = some root? ∧ globalRoot (.str manager) w = (.ok root?, w) := by
  have hroot : w.globalRoots.lookup manager = some root? := by simpa [World.finding?] using h
  obtain ⟨⟨arguments, below⟩, hcommand⟩ := Option.isSome_iff_exists.1 hknown
  refine ⟨hroot, ?_⟩
  unfold globalRoot
  simp only [hcommand, Option.map_some]
  unfold knownRoot
  rw [bind_ok (rfl : (get : Act World World) w = (.ok w, w)), hroot]
  rfl

/-- Asking a package manager for a root goes on with the ledger. What it tells is remembered. -/
theorem knownRoot_follows {manager : String} {arguments : List String} {below : Option String}
    (hcommand : rootCommand? manager = some (arguments, below)) :
    Moves World.Follows (knownRoot manager arguments below) := by
  intro w
  unfold knownRoot
  rw [bind_ok (rfl : (get : Act World World) w = (.ok w, w))]
  cases hroot : w.globalRoots.lookup manager with
  | some root? => exact World.Follows.moving.refl w
  | none =>
    dsimp only
    obtain ⟨read, records, hask⟩ := askRoot_apply manager arguments below w
    have hunasked : ∀ q, Command.question? (.manager manager arguments) = some q →
        w.finding? q = none := by
      rintro q ⟨⟩
      simp only [World.finding?, hroot, Option.map_none]
    have hknown : ∀ name, Command.question? (.manager manager arguments) = some (.root name) →
        (rootCommand? name).isSome = true := by
      rintro name ⟨⟩
      rw [hcommand]
      rfl
    cases hreply :
        (w.processes.reply w.processes.started (.manager manager arguments)).root? below with
    | error e =>
      rw [hreply] at hask
      rw [bind_error hask]
      refine .one rfl rfl rfl rfl hunasked (fun q found => ?_) hknown
      rw [tells_root hcommand, hreply]
      simp [World.finding?]
    | ok root? =>
      rw [hreply] at hask
      rw [bind_ok hask]
      refine .one rfl rfl rfl rfl hunasked (fun q found => ?_) hknown
      rw [tells_root hcommand, hreply]
      refine (finding_root hroot (by rfl) (by rfl) q found).trans ?_
      simp

end Installation

/-! ## Reading languages -/

namespace Engine

/-- The engine matters for the fault only. -/
theorem tableIn_toOption (e e' : Engine) (limits : Limits) (reply : Reply) :
    (e.tableIn limits reply).toOption = (e'.tableIn limits reply).toOption := by
  unfold tableIn answer
  cases reply with
  | notStarted reason => rfl
  | malformed reason => rfl
  | finished stdout stderr exitCode =>
    unfold resultOf
    dsimp only
    split
    · rfl
    · split <;> rfl

theorem tells_languages (e : Engine) (reply : Reply) (q : Question) (found : Finding) :
    Exchange.tells ⟨.node e.nodePath e.modulePath "getSupportInfo", reply⟩ limits q found ↔
      q = .languages e.modulePath ∧
        ∃ table, e.tableIn limits reply = .ok table ∧ found = .languages table := by
  unfold Exchange.tells Exchange.asks
  rw [show Command.question? (.node e.nodePath e.modulePath "getSupportInfo") =
    some (.languages e.modulePath) from rfl, Option.some.injEq, eq_comm]
  refine and_congr_right fun hq => ?_
  subst hq
  rw [Question.finding?, tableIn_toOption _ e]
  cases e.tableIn limits reply <;> simp [Except.toOption, eq_comm]

theorem finding_languages {w w' : World} {modulePath : String} {table : List Language}
    (hunknown : w.languages.lookup modulePath = none)
    (hlanguages : w'.languages = (modulePath, table) :: w.languages)
    (hroots : w'.globalRoots = w.globalRoots) (q : Question) (found : Finding) :
    w'.finding? q = some found ↔
      w.finding? q = some found ∨ q = .languages modulePath ∧ found = .languages table := by
  cases q with
  | root manager => simp [World.finding?, hroots]
  | languages name =>
    simp only [World.finding?, hlanguages, List.lookup_cons]
    by_cases hname : name = modulePath
    · subst hname
      simp [hunknown, eq_comm]
    · have hother : (name == modulePath) = false := by simpa using hname
      simp [hother, hname]

/-- Languages that are not remembered are asked for. -/
theorem languageTable_apply {e : Engine} {w : World} (h : w.languages.lookup e.modulePath = none) :
    let command := Command.node e.nodePath e.modulePath "getSupportInfo"
    let read := e.tableIn w.limits (w.processes.reply w.processes.started command)
    ∃ stdin records, e.languageTable w = (read, { w with
      processes := { w.processes with started := w.processes.started ++ [command] }
      languages := match read with
        | .ok table => (e.modulePath, table) :: w.languages
        | .error _ => w.languages
      journal := { w.journal with
        launches := w.journal.launches ++ [(⟨command, stdin⟩ : Launch)], records } }) := by
  intro command read
  unfold languageTable
  rw [bind_ok (rfl : (get : Act World World) w = (.ok w, w)), h]
  dsimp only
  have hcall := e.call_apply "getSupportInfo" (.obj []) w
  dsimp only at hcall
  cases hanswer :
      e.answer w.limits "getSupportInfo" (w.processes.reply w.processes.started command) with
  | error f =>
    have hread : read = .error f := by simp only [read, tableIn, hanswer, Except.bind]
    rw [hanswer] at hcall
    rw [bind_error hcall, hread]
    exact ⟨_, _, rfl⟩
  | ok v =>
    have hread : read = Language.tableOfEngine v := by
      simp only [read, tableIn, hanswer, Except.bind]
    rw [hanswer] at hcall
    rw [bind_ok hcall, hread]
    cases Language.tableOfEngine v with
    | error f => exact ⟨_, _, rfl⟩
    | ok table => exact ⟨_, _, rfl⟩

/-- Languages that are remembered are not asked for. -/
theorem languageTable_of_finding {e : Engine} {w : World} {table : List Language}
    (h : w.finding? (.languages e.modulePath) = some (.languages table)) :
    e.languageTable w = (.ok table, w) := by
  have hknown : w.languages.lookup e.modulePath = some table := by
    simpa [World.finding?] using h
  unfold languageTable
  rw [bind_ok (rfl : (get : Act World World) w = (.ok w, w)), hknown]
  rfl

theorem languageTable_follows (e : Engine) : Moves World.Follows e.languageTable := by
  intro w
  cases hknown : w.languages.lookup e.modulePath with
  | some table =>
    have hfinding : w.finding? (.languages e.modulePath) = some (.languages table) := by
      simp only [World.finding?, hknown, Option.map_some]
    rw [languageTable_of_finding hfinding]
    exact World.Follows.moving.refl w
  | none =>
    obtain ⟨stdin, records, hread⟩ := languageTable_apply hknown
    rw [hread]
    refine .one rfl rfl rfl rfl ?_ (fun q found => ?_) ?_
    · rintro q ⟨⟩
      simp only [World.finding?, hknown, Option.map_none]
    · rw [tells_languages]
      cases htable : e.tableIn w.limits (w.processes.reply w.processes.started
          (.node e.nodePath e.modulePath "getSupportInfo")) with
      | error f => simp [World.finding?]
      | ok table =>
        refine (finding_languages hknown (by rfl) (by rfl) q found).trans ?_
        simp
    · rintro manager ⟨⟩

/-- Other methods tell nothing that is remembered. -/
theorem call_follows (e : Engine) {method : String} (payload : Json)
    (h : method ≠ "getSupportInfo") : Moves World.Follows (e.call method payload) := by
  intro w
  rw [call_apply]
  have hsilent : Command.question? (.node e.nodePath e.modulePath method) = none := if_neg h
  refine .one rfl rfl rfl rfl (fun q hq => ?_) (fun q found => ?_) fun manager hm => ?_
  · rw [hsilent] at hq
    cases hq
  · simp [World.finding?, Exchange.tells, Exchange.asks, hsilent]
  · rw [hsilent] at hm
    cases hm

end Engine

/-! ## Everything else -/

theorem keep_follows (found : Found) : Moves World.Follows (keep found) := by
  intro w
  have hgrown := keep_grown found w
  obtain ⟨e, engines, records, hkeep, -⟩ := keep_apply found w
  rw [hkeep] at hgrown ⊢
  exact .quiet rfl rfl rfl rfl rfl hgrown

/-- All that requests are made of goes on with the ledger. -/
theorem follows_carries : World.Carries World.Follows where
  moving := World.Follows.moving
  record _ _ := .quiet rfl rfl rfl rfl rfl (.ofEq rfl)
  send _ _ := .quiet rfl rfl rfl rfl rfl (.ofEq rfl)
  root _ _ _ := knownRoot_follows
  keep := keep_follows
  call e _ payload := e.call_follows payload
  languages := Engine.languageTable_follows
  given hprocesses hengines hlanguages hroots hlimits hjournal :=
    .quiet (by rw [hjournal]) hprocesses hlanguages hroots hlimits (.ofEq hengines)

end FormatServer
