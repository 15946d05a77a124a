import FormatServer.Proofs.Installation.Repeated

/-!
# Lookups side by side

Lookups wait for the client and for package managers, and meanwhile others go on, so that each finds
a world that the others have changed. A `Routine` is a lookup cut where it may wait; run without a
pause it is the lookup (`lookup_run`). A `Resolver` takes turns at any number of them. However these
go, a module has one engine (`run_shared`), because looking whether there is one and adding it is one
part of a routine.
-/

set_option autoImplicit false

namespace FormatServer.Installation

open World Act

/-! ## Routines -/

/-- An action that may wait between its parts. -/
inductive Routine (α : Type) : Type 1 where
  | last (x : Act World α)
  | wait {β : Type} (x : Act World β) (rest : β → Routine α)

namespace Routine

variable {α β : Type}

/-- All parts at once. -/
def run : Routine α → Act World α
  | last x => x
  | wait x rest => x >>= fun b => (rest b).run

/-- One routine after another; it may wait between them. -/
def bind : Routine α → (α → Routine β) → Routine β
  | last x, f => wait x f
  | wait x rest, f => wait x fun b => (rest b).bind f

theorem run_bind (r : Routine α) (f : α → Routine β) :
    (r.bind f).run = r.run >>= fun a => (f a).run := by
  induction r with
  | last x => rfl
  | wait x rest ih =>
    show (x >>= fun b => ((rest b).bind f).run) = (x >>= fun b => (rest b).run) >>= _
    rw [bind_assoc]
    exact congrArg _ (funext ih)

end Routine

/-! ## Where a lookup waits -/

/-- Asks the client for the package manager of the folder of a file, if it lies in one. -/
def folderQuestion (path : String) : Act World (Option (String × Except String Json)) := do
  match ← Act.ofExcept (Folder.containing (← get).folders path) with
  | some (folder, _) => return some (folder.uri, ← question folder.uri)
  | none => return none

/-- The root that a package manager is remembered to have, or what it comes to if it is run. -/
def rootOrReply (manager : String) (arguments : List String) :
    Act World (Option String ⊕ Reply) := do
  match (← get).globalRoots.lookup manager with
  | some root? => return .inl root?
  | none => return .inr (← start (.manager manager arguments) none)

/-- Remembers the root of a package manager. -/
def remember (manager : String) (root? : Option String) : Act World Unit :=
  modify fun w => { w with globalRoots := w.globalRoots ++ [(manager, root?)] }

/-- The package manager to ask, with a wait for the client. -/
def managerRoutine (path : String) (settings : Settings) : Routine Json :=
  match settings.packageManager with
  | some manager => .last (return manager)
  | none => .wait (folderQuestion path) fun
    | some (folderUri, answer) =>
      .last (do return .str ((← settleManager folderUri answer).getD "npm"))
    | none => .last (return .str "npm")

/-- The root of a known package manager, with a wait for the process if there is one. -/
def knownRoutine (manager : String) (arguments : List String) (below : Option String) :
    Routine (Option String) :=
  .wait (rootOrReply manager arguments) fun
    | .inl root? => .last (return root?)
    | .inr reply => .last (do
      let root? ← settleRoot manager arguments below reply
      remember manager root?
      return root?)

/-- The root of a package manager; only for a known one there is something to wait for. -/
def rootRoutine : Json → Routine (Option String)
  | .str name =>
    match rootCommand? name with
    | some (arguments, below) => knownRoutine name arguments below
    | none => .last (globalRoot (.str name))
  | manager => .last (globalRoot manager)

def globalRoutine (path : String) (settings : Settings) : Routine (Option Found) :=
  if settings.resolveGlobalModules then
    (managerRoutine path settings).bind fun manager => (rootRoutine manager).bind fun
      | some root => .last (tryLoad (Spelling.join root "prettier") "Skipping global module: ")
      | none => .last (return none)
  else .last (return none)

/-- The search for a module. One that the settings name is found without a wait. -/
def searchRoutine (path : String) (settings : Settings) : Routine (Option Found) :=
  match settings.prettierPath with
  | some _ => .last (find path settings)
  | none => .wait (localModule path) fun
    | some found => .last (return some found)
    | none => (globalRoutine path settings).bind fun
      | some found => .last (return some found)
      | none => .last bundledModule

/-- The lookup of an engine, with the module that was found. -/
def lookup (path : String) (settings : Settings) : Routine (Option (Found × Engine)) :=
  (searchRoutine path settings).bind fun
    | some found => .last (do return some (found, ← keep found))
    | none => .last (return none)

/-! ## Without a pause -/

theorem managerRoutine_run (path : String) (settings : Settings) :
    (managerRoutine path settings).run = packageManagerFor path settings := by
  unfold managerRoutine packageManagerFor
  cases settings.packageManager with
  | some manager => rfl
  | none =>
    dsimp only [Routine.run, folderQuestion]
    rw [bind_assoc]
    refine congrArg _ (funext fun w => ?_)
    rw [bind_assoc]
    refine congrArg _ (funext fun found? => ?_)
    cases found? with
    | none => rfl
    | some found =>
      dsimp only
      rw [bind_assoc, askPackageManager_eq, bind_assoc]
      rfl

theorem knownRoutine_run (manager : String) (arguments : List String) (below : Option String) :
    (knownRoutine manager arguments below).run = knownRoot manager arguments below := by
  unfold knownRoutine knownRoot
  dsimp only [Routine.run, rootOrReply]
  rw [bind_assoc]
  refine congrArg _ (funext fun w => ?_)
  cases w.globalRoots.lookup manager with
  | some root? => rfl
  | none =>
    dsimp only
    rw [bind_assoc, askRoot_eq, bind_assoc]
    rfl

theorem rootRoutine_run (manager : Json) : (rootRoutine manager).run = globalRoot manager := by
  cases manager with
  | str name =>
    unfold rootRoutine
    cases hname : rootCommand? name with
    | none => simp only [hname, Routine.run]
    | some command =>
      simp only [hname]
      rw [knownRoutine_run]
      unfold globalRoot
      simp only [hname, Option.map_some]
  | _ => rfl

theorem globalRoutine_run (path : String) (settings : Settings) :
    (globalRoutine path settings).run = globalModule path settings := by
  unfold globalRoutine globalModule
  split
  · rw [Routine.run_bind, managerRoutine_run]
    refine congrArg _ (funext fun manager => ?_)
    rw [Routine.run_bind, rootRoutine_run]
    refine congrArg _ (funext fun root? => ?_)
    cases root? <;> rfl
  · rfl

theorem searchRoutine_run (path : String) (settings : Settings) :
    (searchRoutine path settings).run = find path settings := by
  unfold searchRoutine
  cases hnamed : settings.prettierPath with
  | some setting => rfl
  | none =>
    unfold find
    rw [hnamed]
    refine congrArg _ (funext fun found? => ?_)
    cases found? with
    | some found => rfl
    | none =>
      dsimp only
      rw [Routine.run_bind, globalRoutine_run]
      refine congrArg _ (funext fun found? => ?_)
      cases found? <;> rfl

/-- Without a pause a routine is the lookup. -/
theorem lookup_run (path : String) (settings : Settings) :
    (do return (← (lookup path settings).run).map Prod.snd) = engine? path settings := by
  unfold lookup
  rw [Routine.run_bind, searchRoutine_run, engine?_eq, bind_assoc]
  refine congrArg _ (funext fun found? => ?_)
  cases found? with
  | none => rfl
  | some found =>
    dsimp only [Routine.run]
    simp only [bind_assoc, pure_bind, Option.map_some]

/-! ## Engines -/

/-- No two engines run the same module. -/
def Distinct (engines : List Engine) : Prop := (engines.map Engine.modulePath).Nodup

/-- Engines are added, and each for another module. -/
structure Grown (w w' : World) : Prop where
  isPrefix : w.engines <+: w'.engines
  distinct : Distinct w.engines → Distinct w'.engines

theorem Grown.ofEq {w w' : World} (h : w'.engines = w.engines) : Grown w w' where
  isPrefix := h ▸ List.prefix_refl w'.engines
  distinct hw := h ▸ hw

theorem Grown.moving : Moving Grown where
  refl _ := .ofEq rfl
  trans h h' := ⟨h.isPrefix.trans h'.isPrefix, fun hw => h'.distinct (h.distinct hw)⟩

theorem logs_grown : Logs Grown := ⟨Grown.moving, fun _ _ _ _ => .ofEq rfl⟩

theorem asks_grown : Asks Grown where
  manager _ _ := .ofEq rfl
  root _ _ _ _ := knownRoot_moves logs_grown (fun _ => .ofEq rfl) fun _ _ => .ofEq rfl

theorem keep_grown (found : Found) : Moves Grown (keep found) := by
  intro w
  obtain ⟨e, engines, records, hkeep, hmodule, -, hengines⟩ := keep_apply found w
  rw [hkeep]
  obtain rfl | ⟨rfl, hnew⟩ := hengines
  · exact .ofEq rfl
  · refine ⟨List.prefix_append _ _, fun hw => ?_⟩
    show ((w.engines ++ [e]).map Engine.modulePath).Nodup
    rw [List.map_append]
    refine List.Nodup.append hw (List.nodup_singleton _) ?_
    rintro m hm hm'
    obtain ⟨e', he', rfl⟩ := List.mem_map.1 hm
    exact hnew e' he' ((List.mem_singleton.1 hm').trans hmodule)

/-- The engine is one of these, and runs the module that was found. -/
structure Serves (engines : List Engine) (found : Found) (e : Engine) : Prop where
  modulePath : e.modulePath = found.modulePath
  mem : e ∈ engines

/-- What a lookup came to. -/
abbrev Outcome := Except Fault (Option (Found × Engine))

/-- An engine that a lookup came to is among the engines. -/
def Sound (engines : List Engine) (outcome : Outcome) : Prop :=
  ∀ found e, outcome = .ok (some (found, e)) → Serves engines found e

theorem Sound.mono {engines engines' : List Engine} {outcome : Outcome} (h : Sound engines outcome)
    (hengines : engines <+: engines') : Sound engines' outcome := fun found e houtcome =>
  ⟨(h found e houtcome).modulePath, hengines.subset (h found e houtcome).mem⟩

namespace Routine

/-- Every part moves the world along `Grown`. -/
def Grows {α : Type} : Routine α → Prop
  | last x => Moves Grown x
  | wait x rest => Moves Grown x ∧ ∀ b, (rest b).Grows

/-- Every part moves the world along `Grown`, and the last one comes to an engine that it leaves
among the engines, if to any. -/
def Safe : Routine (Option (Found × Engine)) → Prop
  | last x => ∀ w, Grown w (x w).2 ∧ Sound (x w).2.engines (x w).1
  | wait x rest => Moves Grown x ∧ ∀ b, (rest b).Safe

theorem Grows.bind {α β : Type} {r : Routine α} {f : α → Routine β} (hr : r.Grows)
    (hf : ∀ a, (f a).Grows) : (r.bind f).Grows := by
  induction r with
  | last x => exact ⟨hr, hf⟩
  | wait x rest ih => exact ⟨hr.1, fun b => ih b (hr.2 b)⟩

theorem Grows.bind_safe {α : Type} {r : Routine α} {f : α → Routine (Option (Found × Engine))}
    (hr : r.Grows) (hf : ∀ a, (f a).Safe) : (r.bind f).Safe := by
  induction r with
  | last x => exact ⟨hr, hf⟩
  | wait x rest ih => exact ⟨hr.1, fun b => ih b (hr.2 b)⟩

end Routine

theorem managerRoutine_grows (path : String) (settings : Settings) :
    (managerRoutine path settings).Grows := by
  have hR := Grown.moving
  unfold managerRoutine
  cases settings.packageManager with
  | some manager => exact .pure hR _
  | none =>
    refine ⟨?_, fun answer? => ?_⟩
    · unfold folderQuestion
      refine .bind hR (.get hR) fun w => .bind hR (.ofExcept hR _) fun found? => ?_
      cases found? with
      | none => exact .pure hR _
      | some found =>
        exact .bind hR (question_moves logs_grown (asks_grown.manager _)) fun _ => .pure hR _
    · cases answer? with
      | none => exact .pure hR _
      | some answer =>
        exact Moves.bind hR (settleManager_moves logs_grown _ _) fun _ => .pure hR _

theorem knownRoutine_grows (manager : String) (arguments : List String) (below : Option String) :
    (knownRoutine manager arguments below).Grows := by
  have hR := Grown.moving
  refine ⟨?_, fun known => ?_⟩
  · unfold rootOrReply
    refine .bind hR (.get hR) fun w => ?_
    cases w.globalRoots.lookup manager with
    | some root? => exact .pure hR _
    | none => exact .bind hR (fun _ => .ofEq rfl) fun _ => .pure hR _
  · cases known with
    | inl root? => exact .pure hR _
    | inr reply =>
      exact Moves.bind hR (settleRoot_moves logs_grown _ _ _ _) fun root? =>
        .bind hR (fun _ => .ofEq rfl) fun _ => .pure hR _

theorem rootRoutine_grows (manager : Json) : (rootRoutine manager).Grows := by
  have hroot : Moves Grown (globalRoot manager) :=
    globalRoot_moves logs_grown asks_grown.root manager
  unfold rootRoutine
  split
  · split
    · exact knownRoutine_grows _ _ _
    · exact hroot
  · exact hroot

theorem searchRoutine_grows (path : String) (settings : Settings) :
    (searchRoutine path settings).Grows := by
  have hR := Grown.moving
  have global : (globalRoutine path settings).Grows := by
    unfold globalRoutine
    split
    · refine (managerRoutine_grows path settings).bind fun manager =>
        (rootRoutine_grows manager).bind fun root? => ?_
      cases root? with
      | some root => exact tryLoad_moves logs_grown _ _
      | none => exact .pure hR _
    · exact .pure hR _
  unfold searchRoutine
  split
  · exact find_moves logs_grown fun _ _ => asks_grown
  · refine ⟨localModule_moves logs_grown path, fun found? => ?_⟩
    cases found? with
    | some found => exact .pure hR _
    | none =>
      refine global.bind fun found? => ?_
      cases found? with
      | some found => exact .pure hR _
      | none => exact bundledModule_moves logs_grown

/-- A lookup adds an engine only after it has looked for one, and without a wait in between. -/
theorem lookup_safe (path : String) (settings : Settings) : (lookup path settings).Safe := by
  refine (searchRoutine_grows path settings).bind_safe fun found? => ?_
  cases found? with
  | none => exact fun w => ⟨Grown.moving.refl w, fun _ _ h => nomatch h⟩
  | some found =>
    intro w
    have hgrown := keep_grown found w
    obtain ⟨e, engines, records, hkeep, hmodule, hkept, -⟩ := keep_apply found w
    rw [map_apply]
    rw [hkeep] at hgrown ⊢
    refine ⟨hgrown, fun found' e' h => ?_⟩
    cases h
    exact ⟨hmodule, List.mem_of_find?_eq_some hkept⟩

/-! ## Turns -/

/-- A lookup that is under way, or has ended. -/
inductive Lookup : Type 1 where
  | running (rest : Routine (Option (Found × Engine)))
  | ended (outcome : Outcome)

/-- A lookup goes on to where it next may wait. -/
def Lookup.go : Lookup → World → Lookup × World
  | running (.last x), w => (ended (x w).1, (x w).2)
  | running (.wait x rest), w =>
    match x w with
    | (.ok b, v) => (running (rest b), v)
    | (.error e, v) => (ended (.error e), v)
  | ended outcome, w => (ended outcome, w)

/-- A world with the lookups that have begun in it. -/
structure Resolver : Type 1 where
  world : World
  lookups : List Lookup := []

inductive Turn where
  /-- A lookup begins. -/
  | look (path : String) (settings : Settings)
  /-- A lookup goes on. -/
  | go (i : Nat)
  /-- Whatever else happens; only lookups add engines. -/
  | other (w : World)

namespace Resolver

def turn (s : Resolver) : Turn → Resolver
  | .look path settings => { s with lookups := s.lookups ++ [.running (lookup path settings)] }
  | .go i =>
    match s.lookups[i]? with
    | some l => ⟨(l.go s.world).2, s.lookups.set i (l.go s.world).1⟩
    | none => s
  | .other w => { s with world := { w with engines := s.world.engines } }

def run (s : Resolver) (turns : List Turn) : Resolver := turns.foldl turn s

/-- A resolver before its first turn. -/
def fresh (w : World) : Resolver := { world := { w with engines := [] } }

/-- A lookup has ended with an engine for the module that it found. -/
def Ended (s : Resolver) (found : Found) (e : Engine) : Prop :=
  .ended (.ok (some (found, e))) ∈ s.lookups

/-- A module has one engine, and every lookup that has found the module has come to it. -/
structure Shared (s : Resolver) : Prop where
  distinct : Distinct s.world.engines
  /-- An engine is found where its own module is looked up. -/
  own : ∀ e ∈ s.world.engines, s.world.engines.find? (·.modulePath = e.modulePath) = some e
  kept : ∀ found e, s.Ended found e → Serves s.world.engines found e
  same : ∀ found e found' e', s.Ended found e → s.Ended found' e' →
    found.modulePath = found'.modulePath → e = e'

end Resolver

/-- What every turn keeps of a lookup. -/
def Lookup.Good (engines : List Engine) : Lookup → Prop
  | running rest => rest.Safe
  | ended outcome => Sound engines outcome

theorem Lookup.Good.mono {engines engines' : List Engine} {l : Lookup} (h : l.Good engines)
    (hengines : engines <+: engines') : l.Good engines' := by
  cases l with
  | running rest => exact h
  | ended outcome => exact Sound.mono h hengines

theorem Lookup.go_good {l : Lookup} {w : World} (h : l.Good w.engines) :
    Grown w (l.go w).2 ∧ (l.go w).1.Good (l.go w).2.engines := by
  cases l with
  | ended outcome => exact ⟨Grown.moving.refl w, h⟩
  | running rest =>
    cases rest with
    | last x => exact h w
    | wait x rest =>
      obtain ⟨hx, hrest⟩ := h
      have hw := hx w
      dsimp only [Lookup.go]
      revert hw
      rcases x w with ⟨e | b, v⟩
      · exact fun hw => ⟨hw, fun _ _ h => nomatch h⟩
      · exact fun hw => ⟨hw, hrest b⟩

namespace Resolver

/-- What every turn keeps. -/
structure Good (s : Resolver) : Prop where
  distinct : Distinct s.world.engines
  lookups : ∀ l ∈ s.lookups, l.Good s.world.engines

theorem turn_good {s : Resolver} (h : s.Good) (t : Turn) :
    (s.turn t).Good ∧ s.world.engines <+: (s.turn t).world.engines := by
  cases t with
  | look path settings =>
    refine ⟨⟨h.distinct, fun l hl => ?_⟩, List.prefix_refl _⟩
    obtain hl | hl := List.mem_append.1 hl
    · exact h.lookups l hl
    · rw [List.mem_singleton.1 hl]
      exact lookup_safe path settings
  | other w => exact ⟨⟨h.distinct, h.lookups⟩, List.prefix_refl _⟩
  | go i =>
    unfold turn
    dsimp only
    cases hi : s.lookups[i]? with
    | none => exact ⟨h, List.prefix_refl _⟩
    | some l =>
      obtain ⟨hgrown, hl⟩ := Lookup.go_good (h.lookups l (List.mem_of_getElem? hi))
      refine ⟨⟨hgrown.distinct h.distinct, fun l' hl' => ?_⟩, hgrown.isPrefix⟩
      obtain hl' | rfl := List.mem_or_eq_of_mem_set hl'
      · exact (h.lookups l' hl').mono hgrown.isPrefix
      · exact hl

theorem run_good {s : Resolver} (h : s.Good) (turns : List Turn) :
    (s.run turns).Good ∧ s.world.engines <+: (s.run turns).world.engines := by
  induction turns generalizing s with
  | nil => exact ⟨h, List.prefix_refl _⟩
  | cons t turns ih =>
    obtain ⟨ht, hturn⟩ := turn_good h t
    obtain ⟨hrun, hengines⟩ := ih ht
    exact ⟨hrun, hturn.trans hengines⟩

theorem fresh_good (w : World) : (fresh w).Good := ⟨List.nodup_nil, fun _ h => nomatch h⟩

theorem Good.shared {s : Resolver} (h : s.Good) : s.Shared := by
  have ended : ∀ {found e}, s.Ended found e → Serves s.world.engines found e :=
    fun he => h.lookups _ he _ _ rfl
  have unique : ∀ {e e'}, e ∈ s.world.engines → e' ∈ s.world.engines →
      e.modulePath = e'.modulePath → e = e' := fun he he' =>
    List.inj_on_of_nodup_map h.distinct he he'
  refine ⟨h.distinct, fun e he => ?_, fun _ _ => ended, fun found e found' e' he he' hm => ?_⟩
  · cases hfind : s.world.engines.find? (·.modulePath = e.modulePath) with
    | none =>
      rw [List.find?_eq_none] at hfind
      exact absurd (by simp) (hfind e he)
    | some e' =>
      have hmodule : e'.modulePath = e.modulePath := by simpa using List.find?_some hfind
      exact congrArg some (unique (List.mem_of_find?_eq_some hfind) he hmodule)
  · exact unique (ended he).mem (ended he').mem
      ((ended he).modulePath.trans (hm.trans (ended he').modulePath.symm))

/-- However lookups take turns, and whatever else happens meanwhile, a module has one engine. -/
theorem run_shared (w : World) (turns : List Turn) : ((fresh w).run turns).Shared :=
  (run_good (fresh_good w) turns).1.shared

end Resolver

end FormatServer.Installation
