import FormatServer.Act

/-!
# Reasoning about actions

An action is run from a state, so a statement about it speaks of the state before, the state after
and the way it ended.

* `Runs R x s Q`: from `s` the action moves the state along `R`, and a value that it returns
  satisfies `Q` in the state it leaves; `Moves R x` says the first part, from every state.
* `Alike R Q x y`: from states related by `R` the two actions end in states related by `R`, either
  with the same fault or with values related by `Q`.
* `Contained I Q E x`: from a state in `I` the action ends in one, with a value in `Q` or with a fault
  in `E`.

All are kept by the ways in which actions are composed (`Runs.bind`, `Alike.bind`, …), so a
statement about a whole request follows the shape of its definition.
-/

set_option autoImplicit false

namespace FormatServer.Act

variable {σ τ α β γ δ : Type}

/-! ## Running an action -/

theorem bind_apply (x : Act σ α) (f : α → Act σ β) (s : σ) :
    (x >>= f) s = match x s with
      | (.ok a, t) => f a t
      | (.error e, t) => (.error e, t) := by
  change (ExceptT.bindCont f (x s).1) (x s).2 = _
  rcases x s with ⟨r, t⟩
  cases r <;> rfl

theorem bind_ok {x : Act σ α} {s t : σ} {a : α} (h : x s = (.ok a, t)) (f : α → Act σ β) :
    (x >>= f) s = f a t := by
  rw [bind_apply, h]

theorem bind_error {x : Act σ α} {s t : σ} {e : Fault} (h : x s = (.error e, t))
    (f : α → Act σ β) : (x >>= f) s = (.error e, t) := by
  rw [bind_apply, h]

/-- What an action returns, made into another value. -/
theorem map_apply (x : Act σ α) (f : α → β) (s : σ) :
    (do return f (← x) : Act σ β) s = ((x s).1.map f, (x s).2) := by
  rw [bind_apply]
  rcases x s with ⟨r, t⟩
  cases r <;> rfl

theorem ofExcept_apply (r : Except Fault α) (s : σ) : ofExcept r s = (r, s) := rfl

theorem attempt_apply (x : Act σ α) (s : σ) : attempt x s = (.ok (x s).1, (x s).2) := rfl

/-- The end of an action after which the failures of a stage are returned. -/
def settled (stage : Stage) : Except Fault α → Except Fault (Except Failure α)
  | .ok a => .ok (.ok a)
  | .error (.failure f) => if f.stage = stage then .ok (.error f) else .error (.failure f)
  | .error e => .error e

theorem recover_apply (stage : Stage) (x : Act σ α) (s : σ) :
    recover stage x s = (settled stage (x s).1, (x s).2) := by
  unfold recover
  rw [bind_ok (attempt_apply x s)]
  cases (x s).1 with
  | ok a => rfl
  | error e =>
    cases e
    case failure f =>
      simp only [settled]
      split <;> rfl
    all_goals rfl

theorem settled_ok {stage : Stage} {r : Except Fault α} {a : α} :
    settled stage r = .ok (.ok a) ↔ r = .ok a := by
  cases r with
  | ok b => simp [settled]
  | error e =>
    cases e
    case failure f =>
      simp only [settled]
      split <;> simp
    all_goals simp [settled]

theorem settled_ok_error {stage : Stage} {r : Except Fault α} {f : Failure} :
    settled stage r = .ok (.error f) ↔ r = .error (.failure f) ∧ f.stage = stage := by
  cases r with
  | ok b => simp [settled]
  | error e =>
    cases e
    case failure g =>
      simp only [settled]
      split
      · next h => grind
      · next h => grind
    all_goals simp [settled]

theorem settled_error {stage : Stage} {r : Except Fault α} {e : Fault}
    (h : settled stage r = .error e) : r = .error e := by
  cases r with
  | ok b => simp [settled] at h
  | error e' =>
    cases e'
    case failure g =>
      simp only [settled] at h
      split at h <;> cases h
      rfl
    all_goals cases h; rfl

/-! ## One run -/

/-- No step is a move, and two moves are one. -/
structure Moving (R : σ → σ → Prop) : Prop where
  refl : ∀ s, R s s
  trans : ∀ {s t u}, R s t → R t u → R s u

/-- From `s` the state moves along `R`, and what is returned satisfies `Q` where it is returned. -/
structure Runs (R : σ → σ → Prop) (x : Act σ α) (s : σ) (Q : α → σ → Prop) : Prop where
  moves : R s (x s).2
  returns : ∀ a, (x s).1 = .ok a → Q a (x s).2

namespace Runs

variable {R : σ → σ → Prop} {s : σ} {P Q : α → σ → Prop}

theorem mono {x : Act σ α} (h : Runs R x s P) (hq : ∀ a t, R s t → P a t → Q a t) :
    Runs R x s Q :=
  ⟨h.moves, fun a ha => hq a _ h.moves (h.returns a ha)⟩

/-- An action that never returns, or of whose value nothing is said. -/
theorem ofMoves {x : Act σ α} (h : R s (x s).2) : Runs R x s fun _ _ => True :=
  ⟨h, fun _ _ => trivial⟩

section
variable (hR : Moving R)
include hR

theorem pure {a : α} (h : Q a s) : Runs R (Pure.pure a) s Q :=
  ⟨hR.refl s, fun _ hb => by cases hb; exact h⟩

theorem throw (e : Fault) : Runs R (throw e : Act σ α) s Q :=
  ⟨hR.refl s, fun _ hb => by cases hb⟩

theorem ofExcept {r : Except Fault α} (h : ∀ a, r = .ok a → Q a s) :
    Runs R (ofExcept r) s Q :=
  ⟨hR.refl s, h⟩

theorem get {Q : σ → σ → Prop} (h : Q s s) : Runs R (MonadState.get : Act σ σ) s Q :=
  ⟨hR.refl s, fun _ hb => by cases hb; exact h⟩

theorem bind {x : Act σ α} {f : α → Act σ β} {Q : β → σ → Prop} (hx : Runs R x s P)
    (hf : ∀ a t, R s t → P a t → Runs R (f a) t Q) : Runs R (x >>= f) s Q := by
  rcases h : x s with ⟨r, t⟩
  have hst : R s t := by have := hx.moves; rwa [h] at this
  cases r with
  | ok a =>
    have ha := hf a t hst (by have := hx.returns a; rw [h] at this; exact this rfl)
    refine ⟨?_, ?_⟩ <;> rw [bind_ok h]
    · exact hR.trans hst ha.moves
    · exact ha.returns
  | error e =>
    refine ⟨?_, ?_⟩ <;> rw [bind_error h]
    · exact hst
    · intro b hb; cases hb

end

theorem recover {x : Act σ α} (h : Runs R x s P) (stage : Stage) :
    Runs R (recover stage x) s fun r t => ∀ a, r = .ok a → P a t := by
  refine ⟨?_, ?_⟩ <;> rw [recover_apply]
  · exact h.moves
  · rintro r hr a rfl
    exact h.returns a (settled_ok.1 hr)

end Runs

/-- From every state the action moves along `R`. -/
def Moves (R : σ → σ → Prop) (x : Act σ α) : Prop := ∀ s, R s (x s).2

namespace Moves

variable {R : σ → σ → Prop}

theorem runs {x : Act σ α} (h : Moves R x) (s : σ) : Runs R x s fun _ _ => True :=
  .ofMoves (h s)

theorem attempt {x : Act σ α} (h : Moves R x) : Moves R (attempt x) := h

theorem recover {x : Act σ α} (h : Moves R x) (stage : Stage) : Moves R (recover stage x) :=
  fun s => ((h.runs s).recover stage).moves

section
variable (hR : Moving R)
include hR

theorem pure (a : α) : Moves R (Pure.pure a : Act σ α) := hR.refl

theorem throw (e : Fault) : Moves R (throw e : Act σ α) := hR.refl

theorem fail (f : Failure) : Moves R (fail f : Act σ α) := hR.refl

theorem ofExcept (r : Except Fault α) : Moves R (ofExcept r : Act σ α) := hR.refl

theorem get : Moves R (MonadState.get : Act σ σ) := hR.refl

theorem bind {x : Act σ α} {f : α → Act σ β} (hx : Moves R x) (hf : ∀ a, Moves R (f a)) :
    Moves R (x >>= f) :=
  fun s => (Runs.bind hR (hx.runs s) fun a t _ _ => (hf a).runs t).moves

end

end Moves

/-! ## Two runs -/

/-- Two outcomes are alike: the same error, or values related by `Q`. -/
inductive SameEnd {ε : Type} (Q : α → β → Prop) : Except ε α → Except ε β → Prop
  | ok {a : α} {b : β} : Q a b → SameEnd Q (.ok a) (.ok b)
  | error (e : ε) : SameEnd Q (.error e) (.error e)

/-- From related states both actions end in related states, and alike. -/
def Alike (R : σ → τ → Prop) (Q : α → β → Prop) (x : Act σ α) (y : Act τ β) : Prop :=
  ∀ s t, R s t → R (x s).2 (y t).2 ∧ SameEnd Q (x s).1 (y t).1

theorem SameEnd.eq {ε : Type} {r r' : Except ε α} (h : SameEnd Eq r r') : r = r' := by
  cases h with
  | ok h => rw [h]
  | error => rfl

theorem SameEnd.refl {Q : α → α → Prop} (hQ : ∀ a, Q a a) : ∀ r : Except Fault α, SameEnd Q r r
  | .ok a => .ok (hQ a)
  | .error e => .error e

theorem SameEnd.mono {P Q : α → β → Prop} (hq : ∀ a b, P a b → Q a b) {r : Except Fault α}
    {r' : Except Fault β} (h : SameEnd P r r') : SameEnd Q r r' := by
  cases h with
  | ok h => exact .ok (hq _ _ h)
  | error e => exact .error e

theorem SameEnd.settled {P : α → β → Prop} {r : Except Fault α} {r' : Except Fault β}
    (h : SameEnd P r r') (stage : Stage) :
    SameEnd (SameEnd P) (settled stage r) (settled stage r') := by
  cases h with
  | ok h => exact .ok (.ok h)
  | error e =>
    cases e
    case failure f =>
      simp only [Act.settled]
      split
      · exact .ok (.error f)
      · exact .error _
    all_goals exact .error _

namespace Alike

variable {R : σ → τ → Prop} {P : α → β → Prop}

theorem mono {Q : α → β → Prop} {x : Act σ α} {y : Act τ β} (h : Alike R P x y)
    (hq : ∀ a b, P a b → Q a b) : Alike R Q x y :=
  fun s t hst => ⟨(h s t hst).1, (h s t hst).2.mono hq⟩

theorem pure {a : α} {b : β} (h : P a b) : Alike R P (Pure.pure a) (Pure.pure b) :=
  fun _ _ hst => ⟨hst, .ok h⟩

theorem throw (e : Fault) : Alike R P (throw e) (throw e) :=
  fun _ _ hst => ⟨hst, .error e⟩

theorem fail (f : Failure) : Alike R P (fail f) (fail f) :=
  fun _ _ hst => ⟨hst, .error _⟩

theorem ofExcept {r : Except Fault α} {r' : Except Fault β} (h : SameEnd P r r') :
    Alike R P (ofExcept r) (ofExcept r') :=
  fun _ _ hst => ⟨hst, h⟩

theorem get : Alike R R (MonadState.get : Act σ σ) (MonadState.get : Act τ τ) :=
  fun _ _ hst => ⟨hst, .ok hst⟩

theorem set {s : σ} {t : τ} (h : R s t) :
    Alike R (fun _ _ => True) (MonadStateOf.set s : Act σ PUnit) (MonadStateOf.set t : Act τ PUnit) :=
  fun _ _ _ => ⟨h, .ok trivial⟩

theorem modify {f : σ → σ} {g : τ → τ} (h : ∀ s t, R s t → R (f s) (g t)) :
    Alike R (fun _ _ => True) (modify f : Act σ PUnit) (modify g : Act τ PUnit) :=
  fun s t hst => ⟨h s t hst, .ok trivial⟩

theorem bind {Q : γ → δ → Prop} {x : Act σ α} {y : Act τ β} {f : α → Act σ γ} {g : β → Act τ δ}
    (hx : Alike R P x y) (hf : ∀ a b, P a b → Alike R Q (f a) (g b)) :
    Alike R Q (x >>= f) (y >>= g) := by
  intro s t hst
  rw [bind_apply, bind_apply]
  have h := hx s t hst
  revert h
  rcases x s with ⟨r, s'⟩
  rcases y t with ⟨r', t'⟩
  rintro ⟨hst', he⟩
  cases he with
  | ok h => exact hf _ _ h s' t' hst'
  | error e => exact ⟨hst', .error e⟩

theorem attempt {x : Act σ α} {y : Act τ β} (h : Alike R P x y) :
    Alike R (SameEnd P) (attempt x) (attempt y) :=
  fun s t hst => ⟨(h s t hst).1, .ok (h s t hst).2⟩

theorem recover {x : Act σ α} {y : Act τ β} (h : Alike R P x y) (stage : Stage) :
    Alike R (SameEnd P) (recover stage x) (recover stage y) := by
  intro s t hst
  rw [recover_apply, recover_apply]
  exact ⟨(h s t hst).1, (h s t hst).2.settled stage⟩

end Alike

/-! ## Contained runs -/

/-- An outcome is a value in `Q` or an error in `E`. -/
inductive EndsIn {ε : Type} (Q : α → Prop) (E : ε → Prop) : Except ε α → Prop
  | ok {a : α} : Q a → EndsIn Q E (.ok a)
  | error {e : ε} : E e → EndsIn Q E (.error e)

/-- From a state in `I` the action ends in one, with a value in `Q` or with a fault in `E`. -/
def Contained (I : σ → Prop) (Q : α → Prop) (E : Fault → Prop) (x : Act σ α) : Prop :=
  ∀ s, I s → I (x s).2 ∧ EndsIn Q E (x s).1

/-- The fault is a failure of a stage. -/
def FailsAt (stage : Stage) (e : Fault) : Prop := ∃ f, e = .failure f ∧ f.stage = stage

/-- The fault is a failure of a stage, or one of those in `S`. -/
def FailsOr (stage : Stage) (S : Fault → Prop) (e : Fault) : Prop := FailsAt stage e ∨ S e

/-- From a state in `I` the action returns, in a state in `I`, or ends in a fault in `S`. -/
abbrev Returns (I : σ → Prop) (S : Fault → Prop) (x : Act σ α) : Prop :=
  Contained I (fun _ => True) S x

/-- From some state in `I` the action returns the value. -/
def Gives (I : σ → Prop) (x : Act σ α) (a : α) : Prop := ∃ s, I s ∧ (x s).1 = .ok a

namespace Contained

variable {I : σ → Prop} {P Q : α → Prop} {E S : Fault → Prop}

theorem mono {E' : Fault → Prop} {x : Act σ α} (h : Contained I P E x) (hq : ∀ a, P a → Q a)
    (he : ∀ e, E e → E' e) : Contained I Q E' x := by
  intro s hs
  obtain ⟨hs', hend⟩ := h s hs
  refine ⟨hs', ?_⟩
  generalize (x s).1 = r at hend
  cases hend with
  | ok ha => exact .ok (hq _ ha)
  | error hf => exact .error (he _ hf)

/-- An action with faults in `S` only has no failures of a stage beside them. -/
theorem weaken {stage : Stage} {x : Act σ α} (h : Contained I Q S x) :
    Contained I Q (FailsOr stage S) x :=
  h.mono (fun _ => id) fun _ => .inr

/-- What an action returns it returns from some state. -/
theorem gives {x : Act σ α} (h : Contained I Q E x) :
    Contained I (fun a => Q a ∧ Gives I x a) E x := by
  intro s hs
  obtain ⟨hs', hend⟩ := h s hs
  refine ⟨hs', ?_⟩
  generalize hr : (x s).1 = r at hend
  cases hend with
  | ok ha => exact .ok ⟨ha, s, hs, hr⟩
  | error he => exact .error he

theorem pure {a : α} (h : Q a) : Contained I Q E (Pure.pure a) := fun _ hs => ⟨hs, .ok h⟩

theorem fail {stage : Stage} {f : Failure} (h : f.stage = stage) :
    Contained I Q (FailsOr stage S) (fail f) :=
  fun _ hs => ⟨hs, .error (.inl ⟨f, rfl, h⟩)⟩

theorem throw {e : Fault} (h : E e) : Contained I Q E (throw e : Act σ α) :=
  fun _ hs => ⟨hs, .error h⟩

theorem ofExcept {r : Except Fault α} (h : EndsIn Q E r) : Contained I Q E (ofExcept r) :=
  fun _ hs => ⟨hs, h⟩

theorem get : Contained I I E (MonadState.get : Act σ σ) := fun _ hs => ⟨hs, .ok hs⟩

theorem modify {f : σ → σ} (h : ∀ s, I s → I (f s)) :
    Contained I (fun _ => True) E (modify f : Act σ PUnit) :=
  fun s hs => ⟨h s hs, .ok trivial⟩

theorem bind {Q : β → Prop} {x : Act σ α} {f : α → Act σ β} (hx : Contained I P E x)
    (hf : ∀ a, P a → Contained I Q E (f a)) : Contained I Q E (x >>= f) := by
  intro s hs
  rw [bind_apply]
  have h := hx s hs
  revert h
  rcases x s with ⟨r, t⟩
  rintro ⟨ht, hend⟩
  cases hend with
  | ok ha => exact hf _ ha t ht
  | error he => exact ⟨ht, .error he⟩

/-- A value that is at hand is passed on. -/
theorem ofOk {Q : β → Prop} {a : α} {f : α → Act σ β} (h : Contained I Q E (f a)) :
    Contained I Q E (Act.ofExcept (.ok a) >>= f) := by
  intro s hs
  rw [bind_ok (rfl : Act.ofExcept (.ok a) s = (.ok a, s))]
  exact h s hs

/-- Whatever fault an action ends in, it is returned. -/
theorem attempt {x : Act σ α} (h : Contained I Q (fun _ => True) x) :
    Contained I (fun _ => True) E (attempt x) :=
  fun s hs => ⟨(h s hs).1, .ok trivial⟩

/-- The failures of a stage are returned, and other faults go on. -/
theorem recover {stage : Stage} {x : Act σ α} (h : Contained I Q (FailsOr stage S) x) :
    Contained I (EndsIn Q fun f => f.stage = stage) S (recover stage x) := by
  intro s hs
  obtain ⟨hs', hend⟩ := h s hs
  rw [recover_apply]
  refine ⟨hs', ?_⟩
  generalize (x s).1 = r at hend
  cases hend with
  | ok ha => exact .ok (.ok ha)
  | @error e he =>
    cases hs : settled stage (.error e : Except Fault α) with
    | error e' =>
      -- a fault that goes on is no failure of the stage
      cases settled_error hs
      obtain ⟨f, rfl, hstage⟩ | he := he
      · cases (settled_ok_error.2 ⟨rfl, hstage⟩).symm.trans hs
      · exact .error he
    | ok answer =>
      cases answer with
      | ok a => cases settled_ok.1 hs
      | error f => exact .ok (.error (settled_ok_error.1 hs).2)

end Contained

end FormatServer.Act
