import FormatServer.Pipeline
import FormatServer.Proofs.Action

/-!
# How far a request comes

A request stops at a gate, or it comes to the one call that formats (`Reached`). What the
collaborators do up to that call is described by a relation `R` along which they move the states in
which `I` holds (`Collaborators.Steady`); `complete_reached` says that the whole request then keeps
to it.
-/

set_option autoImplicit false

namespace FormatServer

open Act

variable {σ ε : Type}

/-- Under some settings every collaborator but the one that formats moves the states in `I` along `R`,
and `I` goes on to hold. The engine that is found is in `E`, the ignore file in `F`. -/
structure Collaborators.Steady (c : Collaborators σ ε) (I : σ → Prop) (R : σ → σ → Prop)
    (E : ε → Prop) (F : String → Prop) (settings : Settings) : Prop where
  keeps : ∀ {s t}, R s t → I s → I t
  localConfig : ∀ d s, I s → R s (c.localConfig d settings s).2
  engine : ∀ path s, I s → Runs R (c.engine path settings) s fun e? _ => ∀ e, e? = some e → E e
  ignoreFile : ∀ path s, I s →
    Runs R (c.ignoreFile path settings.ignorePath) s fun file? _ => ∀ f, file? = some f → F f
  fileInfo : ∀ e path file? s, I s → E e → (∀ f, file? = some f → F f) →
    R s (c.fileInfo e path (Pipeline.fileInfoOptions settings file?) s).2
  languages : ∀ e s, I s → E e → R s (c.languages e s).2

namespace Pipeline

/-- A run stopped at a gate and returned no text, or it came to the call that formats `text`. -/
inductive Reached (c : Collaborators σ ε) (R : σ → σ → Prop) (E : ε → Prop)
    (text path : String) (request : FormatRequest) (s : σ)
    (p : Except Fault (Option String) × σ) : Prop
  | stopped : R s p.2 → (∀ r, p.1 ≠ .ok (some r)) → Reached c R E text path request s p
  | formats (t : σ) (e : ε) (parser : Json) (settings : Settings) (config : LocalConfig) :
      R s t → E e →
      p = (do return some (← formatted c e text (Options.merged path parser settings config request)))
        t →
      Reached c R E text path request s p

section
variable {c : Collaborators σ ε} {I : σ → Prop} {R : σ → σ → Prop} {E : ε → Prop} {F : String → Prop}
  {text path : String} {request : FormatRequest} {settings : Settings}
variable (hR : Moving R) (hlog : ∀ r, Moves R (c.log r))
include hR

/-! ## Composition -/

/-- A request that has moved on before it stops or formats. -/
theorem Reached.after {s t : σ} {p : Except Fault (Option String) × σ} (hst : R s t)
    (h : Reached c R E text path request t p) : Reached c R E text path request s p := by
  cases h with
  | stopped hp hn => exact .stopped (hR.trans hst hp) hn
  | formats u e parser settings config hu he hp =>
    exact .formats u e parser settings config (hR.trans hst hu) he hp

theorem Reached.bind {α : Type} {P : α → σ → Prop} {x : Act σ α}
    {f : α → Act σ (Option String)} {s : σ} (hx : Runs R x s P)
    (hf : ∀ a t, R s t → P a t → Reached c R E text path request t (f a t)) :
    Reached c R E text path request s ((x >>= f) s) := by
  rcases h : x s with ⟨r, t⟩
  have hst : R s t := by have := hx.moves; rwa [h] at this
  cases r with
  | ok a =>
    rw [bind_ok h]
    exact .after hR hst (hf a t hst (by have := hx.returns a; rw [h] at this; exact this rfl))
  | error e =>
    rw [bind_error h]
    exact .stopped hst fun r hr => by cases hr

include hlog

/-- A gate that is shut leaves a record and returns nothing. -/
theorem Reached.shut (r : LogEntry) (s : σ) :
    Reached c R E text path request s ((do c.log r; return none) s) :=
  .bind hR ((hlog r).runs s) fun _ t _ _ => .stopped (hR.refl t) fun r hr => by cases hr

/-! ## The gates -/

theorem options_runs (parser : Json) (config : LocalConfig) (s : σ) :
    Runs R (options c path parser settings config request) s fun merged _ =>
      merged = Options.merged path parser settings config request := by
  unfold options
  cases config <;>
    exact .bind hR ((hlog _).runs s) fun _ t _ _ =>
      .bind hR ((hlog _).runs t) fun _ u _ _ => .pure hR rfl

/-- The call that formats moves as it does, and a failure of it is logged. -/
theorem formatted_moves {e : ε} {options : Fields} (hformat : Moves R (c.format e text options)) :
    Moves R (formatted c e text options) := by
  unfold formatted
  refine .bind hR (.attempt hformat) fun outcome => ?_
  cases outcome with
  | ok result => exact .pure hR _
  | error fault => exact .bind hR (hlog _) fun _ => .pure hR _

variable (hc : c.Steady I R E F settings)
include hc

theorem ignoreFile_runs (d : Snapshot) {s : σ} (hs : I s) :
    Runs R (ignoreFile c d path settings) s fun file? _ => ∀ f, file? = some f → F f := by
  unfold ignoreFile
  split
  · refine .bind hR (hc.ignoreFile path s hs) fun file? t _ hF => ?_
    cases file? with
    | none => exact .pure hR fun f hf => by cases hf
    | some file =>
      exact .bind hR ((hlog _).runs t) fun _ u _ _ => .pure hR hF
  · exact .pure hR fun f hf => by cases hf

variable {e : ε} (he : E e)
include he

theorem inspect_runs (d : Snapshot) {file? : Option String} {s : σ} (hs : I s)
    (hF : ∀ f, file? = some f → F f) :
    Runs R (inspect c e d path settings file?) s fun _ _ => True := by
  unfold inspect
  split
  · refine .bind hR (.recover (.ofMoves (hc.fileInfo e path file? s hs he hF)) .engine)
      fun outcome t _ _ => ?_
    cases outcome with
    | ok info => exact .bind hR ((hlog _).runs t) fun _ u _ _ => .pure hR trivial
    | error f => exact .bind hR ((hlog _).runs t) fun _ u _ _ => .pure hR trivial
  · exact .pure hR trivial

theorem parser_runs (d : Snapshot) (i : Inspection) {s : σ} (hs : I s) :
    Runs R (parser? c e d path i) s fun _ _ => True := by
  unfold parser?
  split
  · exact .pure hR trivial
  · split
    · exact .pure hR trivial
    · refine .bind hR (P := fun _ _ => True) ?_ fun found t _ _ => .pure hR trivial
      unfold languageParser
      refine .bind hR ((hlog _).runs s) fun _ t ht _ => ?_
      refine .bind hR (.recover (.ofMoves (hc.languages e t (hc.keeps ht hs) he)) .engine)
        fun outcome u _ _ => ?_
      cases outcome with
      | ok table => exact .pure hR trivial
      | error f => exact .bind hR ((hlog _).runs u) fun _ v _ _ => .pure hR trivial

theorem parseAndFormat_reached (d : Snapshot) (config : LocalConfig) (i : Inspection) {s : σ}
    (hs : I s) :
    Reached c R E text path request s
      (parseAndFormat c text d path settings config request e i s) := by
  unfold parseAndFormat
  refine .bind hR (parser_runs hR hlog hc he d i hs) fun parser? t _ _ => ?_
  cases parser? with
  | none => exact .shut hR hlog _ t
  | some parser =>
    refine .bind hR (options_runs hR hlog parser config t) fun merged u _ hm => ?_
    subst hm
    exact .formats u e parser settings config (hR.refl u) he rfl

theorem inspectAndFormat_reached (d : Snapshot) (config : LocalConfig) {s : σ} (hs : I s) :
    Reached c R E text path request s
      (inspectAndFormat c text d path settings config request e s) := by
  unfold inspectAndFormat
  refine .bind hR (ignoreFile_runs hR hlog hc d hs) fun file? t ht hF => ?_
  have hs := hc.keeps ht hs
  refine .bind hR (inspect_runs hR hlog hc he d hs hF) fun i u hu _ => ?_
  have hs := hc.keeps hu hs
  cases i with
  | failed => exact .stopped (hR.refl u) fun r hr => by cases hr
  | virtual =>
    split
    · exact .shut hR hlog _ u
    · exact parseAndFormat_reached hR hlog hc he d config _ hs
  | known info =>
    split
    · exact .shut hR hlog _ u
    · exact parseAndFormat_reached hR hlog hc he d config _ hs

omit he in
theorem withSettings_reached (d : Snapshot) {s : σ} (hs : I s) :
    Reached c R E text path request s (withSettings c text d path request settings s) := by
  unfold withSettings
  refine .bind hR (.ofMoves (hc.localConfig d s hs)) fun config t ht _ => ?_
  have hs := hc.keeps ht hs
  split
  · exact .shut hR hlog _ t
  · refine .bind hR (hc.engine path t hs) fun e? u hu he => ?_
    cases e? with
    | none => exact .shut hR hlog _ u
    | some e => exact inspectAndFormat_reached hR hlog hc (he e rfl) d config (hc.keeps hu hs)

/-! ## The request -/

omit hc he in
theorem complete_reached (d : Snapshot) {outcome : Except Fault Settings}
    (hc : ∀ settings, outcome = .ok settings → c.Steady I R E F settings) {s : σ} (hs : I s) :
    Reached c R E text path request s (complete c text d path request outcome s) := by
  unfold complete
  cases outcome with
  | ok settings =>
    show Reached c R E text path request s (withSettings c text d path request settings s)
    exact withSettings_reached hR hlog (hc settings rfl) d hs
  | error e =>
    refine .bind hR (.recover (.ofExcept hR (Q := fun _ _ => False) fun a ha => by cases ha)
      .settings) fun settled t _ hset => ?_
    cases settled with
    | ok settings => exact (hset settings rfl).elim
    | error f => exact .shut hR hlog _ t

omit hc he in
/-- Without settings a request only logs. -/
theorem complete_error_moves (d : Snapshot) (e : Fault) :
    Moves R (complete c text d path request (.error e)) := by
  intro s
  have hreached : Reached c R (fun _ => False) text path request s
      (complete c text d path request (.error e) s) :=
    complete_reached hR hlog d (I := fun _ => True) (F := fun _ => True)
      (fun _ hs => by cases hs) trivial
  cases hreached with
  | stopped ht _ => exact ht
  | formats _ _ _ _ _ _ he _ => exact he.elim

end

end Pipeline

end FormatServer
