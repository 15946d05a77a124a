import FormatServer.Installation.Lookup
import FormatServer.Proofs.Action

/-!
# How a search moves the world

A search for a module reads the world and logs. Where the settings ask for global modules it also asks
the client for a package manager, and a package manager for its root. Along whatever relation these
move the world, the search moves it (`find_moves`).
-/

set_option autoImplicit false

namespace FormatServer.Installation

open World Act

variable {R : World → World → Prop}

/-- Records that are no errors move the world along `R`. -/
structure Logs (R : World → World → Prop) : Prop where
  moving : Moving R
  log : ∀ level message, level < Level.error → Moves R (log level message)

/-- So do the questions of a search for a global installation. -/
structure Asks (R : World → World → Prop) : Prop where
  manager : ∀ folderUri, Moves R (send (.askPackageManager folderUri))
  root : ∀ manager arguments below, rootCommand? manager = some (arguments, below) →
    Moves R (knownRoot manager arguments below)

/-! ## Questions and what follows them -/

/-- Asks the client for the package manager of a folder. -/
def question (folderUri : String) : Act World (Except String Json) := do
  let w ← get
  send (.askPackageManager folderUri)
  return w.client.packageManager w.journal.sent folderUri

/-- Reads the answer of the client. -/
def settleManager (folderUri : String) : Except String Json → Act World (Option String)
  | .error reason => do
    log Level.debug ("Package manager lookup failed for " ++ folderUri ++ ": " ++ reason)
    return none
  | .ok (.str s) => return if s = "" then none else some s
  | .ok _ => return none

theorem askPackageManager_eq (folderUri : String) :
    askPackageManager folderUri = question folderUri >>= settleManager folderUri := rfl

/-- Reads what a package manager came to that was asked for its root. -/
def settleRoot (manager : String) (arguments : List String) (below : Option String) :
    Reply → Act World (Option String)
  | .notStarted reason => do
    log Level.warning ("Could not run " ++ manager ++ ": " ++ reason)
    return none
  | .malformed reason => throw (.commandMalformed reason)
  | .finished stdout stderr exitCode => do
    let root? ← if exitCode = 0 then Act.ofExcept (printedRoot stdout below) else pure none
    if root?.isNone then
      log Level.warning (manager ++ " " ++ " ".intercalate arguments ++ " failed: " ++
        String.ofList (Text.trim (Text.decodeLossy stderr)))
    return root?

theorem askRoot_eq (manager : String) (arguments : List String) (below : Option String) :
    askRoot manager arguments below =
      start (.manager manager arguments) none >>= settleRoot manager arguments below := rfl

section
variable (h : Logs R)
include h

theorem load_moves (modulePath : String) : Moves R (load modulePath) := by
  have hR := h.moving
  unfold load
  exact .bind hR (.get hR) fun _ => .bind hR (.ofExcept hR _) fun _ => .pure hR _

theorem tryLoad_moves (modulePath skipping : String) : Moves R (tryLoad modulePath skipping) := by
  have hR := h.moving
  unfold tryLoad
  refine .bind hR (.recover (load_moves h modulePath) .module) fun outcome => ?_
  cases outcome with
  | ok found => exact .pure hR _
  | error f => exact .bind hR (h.log _ _ (by decide)) fun _ => .pure hR _

theorem explicitPath_moves (path : String) (setting : Json) :
    Moves R (explicitPath path setting) := by
  have hR := h.moving
  unfold explicitPath
  cases setting
  case str s =>
    refine .bind hR (.get hR) fun w => .bind hR (.ofExcept hR _) fun resolved? => ?_
    cases resolved? with
    | some resolved => exact .pure hR _
    | none =>
      dsimp only
      split
      · exact .pure hR _
      · exact .fail hR _
  all_goals exact .throw hR _

theorem localModule_moves (path : String) : Moves R (localModule path) := by
  have hR := h.moving
  unfold localModule
  refine .bind hR (.get hR) fun w => ?_
  split
  · refine .bind hR (.ofExcept hR _) fun p? => ?_
    cases p? with
    | some p => exact tryLoad_moves h _ _
    | none => exact .pure hR _
  · exact .pure hR _

theorem bundledModule_moves : Moves R bundledModule := by
  have hR := h.moving
  unfold bundledModule
  refine .bind hR (.get hR) fun w => ?_
  dsimp only
  split
  · split
    · exact .pure hR _
    · exact .bind hR (load_moves h _) fun _ => .pure hR _
  · split
    · exact .throw hR _
    · exact .pure hR _

/-! ## The global root -/

theorem settleManager_moves (folderUri : String) (answer : Except String Json) :
    Moves R (settleManager folderUri answer) := by
  have hR := h.moving
  unfold settleManager
  split
  · exact .bind hR (h.log _ _ (by decide)) fun _ => .pure hR _
  · exact .pure hR _
  · exact .pure hR _

theorem question_moves {folderUri : String}
    (hsend : Moves R (send (.askPackageManager folderUri))) : Moves R (question folderUri) := by
  have hR := h.moving
  exact .bind hR (.get hR) fun w => .bind hR hsend fun _ => .pure hR _

theorem askPackageManager_moves {folderUri : String}
    (hsend : Moves R (send (.askPackageManager folderUri))) :
    Moves R (askPackageManager folderUri) := by
  rw [askPackageManager_eq]
  exact .bind h.moving (question_moves h hsend) fun _ => settleManager_moves h _ _

/-- What follows the start of a package manager only logs. -/
theorem settleRoot_moves (manager : String) (arguments : List String) (below : Option String)
    (reply : Reply) : Moves R (settleRoot manager arguments below reply) := by
  have hR := h.moving
  cases reply with
  | notStarted reason => exact .bind hR (h.log _ _ (by decide)) fun _ => .pure hR _
  | malformed reason => exact .throw hR _
  | finished stdout stderr exitCode =>
    have report : ∀ root? : Option String, Moves R (do
        if root?.isNone then
          log Level.warning (manager ++ " " ++ " ".intercalate arguments ++ " failed: " ++
            String.ofList (Text.trim (Text.decodeLossy stderr)))
        return root?) := fun root? => by
      split
      · exact .bind hR (h.log _ _ (by decide)) fun _ => .pure hR _
      · exact .pure hR _
    dsimp only [settleRoot]
    split
    · exact .bind hR (.ofExcept hR _) report
    · exact .bind hR (.pure hR _) report

theorem askRoot_moves {manager : String} {arguments : List String} {below : Option String}
    (hstart : Moves R (start (.manager manager arguments) none)) :
    Moves R (askRoot manager arguments below) := by
  rw [askRoot_eq]
  exact .bind h.moving hstart fun _ => settleRoot_moves h _ _ _ _

theorem knownRoot_moves {manager : String} {arguments : List String} {below : Option String}
    (hstart : Moves R (start (.manager manager arguments) none))
    (hremember : ∀ root? : Option String, Moves R
      (modify fun w => { w with globalRoots := w.globalRoots ++ [(manager, root?)] })) :
    Moves R (knownRoot manager arguments below) := by
  have hR := h.moving
  unfold knownRoot
  refine .bind hR (.get hR) fun w => ?_
  split
  · exact .pure hR _
  · exact .bind hR (askRoot_moves h hstart) fun root? =>
      .bind hR (hremember root?) fun _ => .pure hR _

theorem packageManagerFor_moves (ha : Asks R) (path : String) (settings : Settings) :
    Moves R (packageManagerFor path settings) := by
  have hR := h.moving
  unfold packageManagerFor
  split
  · exact .pure hR _
  · refine .bind hR (.get hR) fun w => .bind hR (.ofExcept hR _) fun found? => ?_
    split
    · exact .bind hR (askPackageManager_moves h (ha.manager _)) fun _ => .pure hR _
    · exact .pure hR _

theorem globalRoot_moves
    (hroot : ∀ manager arguments below, rootCommand? manager = some (arguments, below) →
      Moves R (knownRoot manager arguments below)) (manager : Json) :
    Moves R (globalRoot manager) := by
  have hR := h.moving
  unfold globalRoot
  split
  · exact .throw hR _
  · exact .throw hR _
  · dsimp only
    split
    · next name arguments below hknown =>
      refine hroot _ _ _ ?_
      split at hknown
      · obtain ⟨_, hcommand, h⟩ := Option.map_eq_some_iff.1 hknown
        cases h
        exact hcommand
      · cases hknown
    · exact .bind hR (h.log _ _ (by decide)) fun _ => .pure hR _

/-! ## The search -/

variable {path : String} {settings : Settings}

theorem globalModule_moves (ha : settings.resolveGlobalModules = true → Asks R) :
    Moves R (globalModule path settings) := by
  have hR := h.moving
  unfold globalModule
  split
  · next hglobal =>
    refine .bind hR (packageManagerFor_moves h (ha hglobal) path settings) fun manager =>
      .bind hR (globalRoot_moves h (ha hglobal).root manager) fun root? => ?_
    cases root? with
    | some root => exact tryLoad_moves h _ _
    | none => exact .pure hR _
  · exact .pure hR _

theorem find_moves
    (ha : settings.prettierPath = none → settings.resolveGlobalModules = true → Asks R) :
    Moves R (find path settings) := by
  have hR := h.moving
  unfold find
  cases hpath : settings.prettierPath with
  | some setting =>
    exact .bind hR (explicitPath_moves h _ _) fun _ => .bind hR (load_moves h _) fun _ => .pure hR _
  | none =>
    refine .bind hR (localModule_moves h path) fun found? => ?_
    cases found? with
    | some found => exact .pure hR _
    | none =>
      refine .bind hR (globalModule_moves h (ha hpath)) fun found? => ?_
      cases found? with
      | some found => exact .pure hR _
      | none => exact bundledModule_moves h

end

end FormatServer.Installation
