import FormatServer.Proofs.Edit.Answer
import FormatServer.Proofs.Pipeline.Alike
import FormatServer.Proofs.Pipeline.Reach

/-!
# The calls of a request

A request is watched by noting every call of a collaborator with the way it ended, and every record
that could not be made (`Call`, `Collaborators.watched`); the notes change nothing (`watch_fst`).
What a request is answered with is then a matter of its calls: `Answers d returned? edits` says that
the edits turn the document into the text that was returned, and leave it alone where none was, and
`provideEdits_answers` that every request that is answered is answered so.
-/

set_option autoImplicit false

namespace FormatServer

open Act

variable {σ ε : Type}

/-- A call of a collaborator, with how it ended. -/
inductive Call (ε : Type) where
  | settings (uri : String) (outcome : Except Fault (Except Fault Settings))
  | localConfig (d : Snapshot) (settings : Settings) (outcome : Except Fault LocalConfig)
  | engine (path : String) (settings : Settings) (outcome : Except Fault (Option ε))
  | ignoreFile (path : String) (name : Json) (outcome : Except Fault (Option String))
  | fileInfo (e : ε) (path : String) (options : Fields) (outcome : Except Fault FileInfo)
  | languages (e : ε) (outcome : Except Fault (List Language))
  | format (e : ε) (text : String) (options : Fields) (outcome : Except Fault String)
  /-- An entry of which no record could be made. -/
  | unlogged (entry : LogEntry) (fault : Fault)

/-- How a call that formats ended. -/
def Call.formatted? : Call ε → Option (Except Fault String)
  | format _ _ _ outcome => some outcome
  | _ => none

/-- An action on a state and notes, which notes how it ended. -/
def Act.noted {α ν : Type} (note : Except Fault α → ν) (x : Act σ α) : Act (σ × List ν) α :=
  ExceptT.mk fun p => ((x p.1).1, (x p.1).2, p.2 ++ [note (x p.1).1])

/-- An action on a state and notes, which notes a fault only. -/
def Act.faultNoted {α ν : Type} (note : Fault → ν) (x : Act σ α) : Act (σ × List ν) α :=
  ExceptT.mk fun p => ((x p.1).1, (x p.1).2, match (x p.1).1 with
    | .ok _ => p.2
    | .error fault => p.2 ++ [note fault])

/-- The collaborators with a note of every call. -/
def Collaborators.watched (c : Collaborators σ ε) : Collaborators (σ × List (Call ε)) ε where
  log entry := faultNoted (.unlogged entry) (c.log entry)
  localConfig d settings := noted (.localConfig d settings) (c.localConfig d settings)
  engine path settings := noted (.engine path settings) (c.engine path settings)
  ignoreFile path name := noted (.ignoreFile path name) (c.ignoreFile path name)
  fileInfo e path options := noted (.fileInfo e path options) (c.fileInfo e path options)
  languages e := noted (.languages e) (c.languages e)
  format e text options := noted (.format e text options) (c.format e text options)

theorem Act.noted_alike {α ν : Type} (note : Except Fault α → ν) (x : Act σ α) :
    Alike (fun s p => p.1 = s) Eq x (noted note x) := by
  rintro s ⟨_, notes⟩ rfl
  exact ⟨rfl, .refl (fun _ => rfl) _⟩

theorem Act.faultNoted_alike {α ν : Type} (note : Fault → ν) (x : Act σ α) :
    Alike (fun s p => p.1 = s) Eq x (faultNoted note x) := by
  rintro s ⟨_, notes⟩ rfl
  exact ⟨rfl, .refl (fun _ => rfl) _⟩

theorem Act.faultNoted_ok {α ν : Type} {note : Fault → ν} {x : Act σ α} {p : σ × List ν} {a : α}
    (h : (x p.1).1 = .ok a) : faultNoted note x p = (.ok a, (x p.1).2, p.2) := by
  show ((x p.1).1, (x p.1).2, match (x p.1).1 with
    | .ok _ => p.2
    | .error fault => p.2 ++ [note fault]) = _
  rw [h]

theorem Act.faultNoted_error {α ν : Type} {note : Fault → ν} {x : Act σ α} {p : σ × List ν}
    {fault : Fault} (h : (x p.1).1 = .error fault) :
    faultNoted note x p = (.error fault, (x p.1).2, p.2 ++ [note fault]) := by
  show ((x p.1).1, (x p.1).2, match (x p.1).1 with
    | .ok _ => p.2
    | .error fault => p.2 ++ [note fault]) = _
  rw [h]

/-- An action of which a fault is noted ends well with the notes as they were, or in the fault that
it notes. -/
theorem Act.faultNoted_cases {α ν : Type} (note : Fault → ν) (x : Act σ α) (p : σ × List ν) :
    (∃ a, (faultNoted note x p).1 = .ok a ∧ (faultNoted note x p).2.2 = p.2) ∨
      ∃ fault, (faultNoted note x p).1 = .error fault ∧
        (faultNoted note x p).2.2 = p.2 ++ [note fault] := by
  cases h : (x p.1).1 with
  | ok a => exact .inl ⟨a, by rw [faultNoted_ok h], by rw [faultNoted_ok h]⟩
  | error fault => exact .inr ⟨fault, by rw [faultNoted_error h], by rw [faultNoted_error h]⟩

theorem Collaborators.watched_alike (c : Collaborators σ ε) :
    c.Alike (fun s p => p.1 = s) Eq c.watched where
  use h := by subst h; exact ⟨rfl, rfl, rfl⟩
  log _ := faultNoted_alike _ _
  localConfig _ _ _ h := by subst h; exact noted_alike _ _
  engine _ _ _ h := by subst h; exact noted_alike _ _
  ignoreFile _ _ := noted_alike _ _
  fileInfo _ _ _ := noted_alike _ _
  languages _ := noted_alike _ _
  format _ _ _ := noted_alike _ _

namespace Pipeline

variable (c : Collaborators σ ε) (fetch : String → Act σ (Except Fault Settings)) (d : Snapshot)
  (request : FormatRequest)

/-- A request with a note of every call. -/
def watch : Act (σ × List (Call ε)) (List TextEdit) :=
  provideEdits c.watched (fun uri => noted (.settings uri) (fetch uri)) d request

/-- The calls that a request makes, in order. -/
def calls (s : σ) : List (Call ε) := (watch c fetch d request (s, [])).2.2

/-- The text that the engine returned. -/
def returned (calls : List (Call ε)) : Option String :=
  (calls.filterMap Call.formatted?).findSome? Except.toOption

/-- The edits turn the document into the text that was returned, whichever way a client applies
them; there are none where no other text was returned. -/
inductive Answers (d : Snapshot) : Option String → List TextEdit → Prop
  | nothing : Answers d none []
  | same : Answers d (some d.text) []
  | edit {r : String} {e : TextEdit} : r ≠ d.text → e.apply d = r.toList →
      e.applyUnits d = Text.utf16 r.toList → Answers d (some r) [e]

/-! ## Watching changes nothing -/

theorem fetch_alike (uri : String) : Alike (fun s (p : σ × List (Call ε)) => p.1 = s) (SameEnd Eq)
    (fetch uri) (noted (.settings uri) (fetch uri)) :=
  (noted_alike _ (fetch uri)).mono fun o _ h => by subst h; exact .refl (fun _ => rfl) o

theorem watch_alike : Alike (fun s (p : σ × List (Call ε)) => p.1 = s) Eq
    (provideEdits c fetch d request) (watch c fetch d request) :=
  provideEdits_alike c.watched_alike (fetch_alike fetch) d request

theorem watch_fst (s : σ) :
    (watch c fetch d request (s, [])).1 = (provideEdits c fetch d request s).1 :=
  ((watch_alike c fetch d request s (s, []) rfl).2.eq).symm

/-! ## One call that formats -/

/-- No call that formats has been noted. -/
def Quiet (p q : σ × List (Call ε)) : Prop :=
  q.2.filterMap Call.formatted? = p.2.filterMap Call.formatted?

theorem quiet_moving : Moving (Quiet : σ × List (Call ε) → σ × List (Call ε) → Prop) :=
  ⟨fun _ => rfl, fun h h' => h'.trans h⟩

variable {c d request}

theorem quiet_log (entry : LogEntry) : Moves Quiet (c.watched.log entry) := by
  intro p
  unfold Quiet
  obtain ⟨_, -, h⟩ | ⟨fault, -, h⟩ := faultNoted_cases (.unlogged entry) (c.log entry) p
  · exact congrArg _ h
  · refine (congrArg _ h).trans ?_
    simp [List.filterMap_append, Call.formatted?]

theorem quiet_noted {α : Type} {note : Except Fault α → Call ε}
    (hnote : ∀ o, (note o).formatted? = none) (x : Act σ α) (p : σ × List (Call ε)) :
    Quiet p (noted note x p).2 := by
  show (p.2 ++ [note (x p.1).1]).filterMap Call.formatted? = _
  simp [List.filterMap_append, hnote]

theorem watched_steady (settings : Settings) :
    c.watched.Steady (fun _ => True) Quiet (fun _ => True) (fun _ => True) settings where
  keeps _ _ := trivial
  localConfig _ p _ := quiet_noted (fun _ => rfl) _ p
  engine _ p _ := ⟨quiet_noted (fun _ => rfl) _ p, fun _ _ _ _ => trivial⟩
  ignoreFile _ p _ := ⟨quiet_noted (fun _ => rfl) _ p, fun _ _ _ _ => trivial⟩
  fileInfo _ _ _ p _ _ _ := quiet_noted (fun _ => rfl) _ p
  languages _ p _ _ := quiet_noted (fun _ => rfl) _ p

/-- What a formatted text comes to: the one that was returned, or the old one. -/
theorem formatted_noted (e : ε) (text : String) (options : Fields) (p : σ × List (Call ε))
    {r : String} (h : (formatted c.watched e text options p).1 = .ok r) :
    ∃ outcome, (formatted c.watched e text options p).2.2 =
        p.2 ++ [.format e text options outcome] ∧ r = outcome.toOption.getD text := by
  unfold formatted at h ⊢
  rw [bind_ok (attempt_apply _ p)] at h ⊢
  have hnote : (c.watched.format e text options p).1 = (c.format e text options p.1).1 := rfl
  rw [hnote] at h ⊢
  refine ⟨(c.format e text options p.1).1, ?_⟩
  cases ho : (c.format e text options p.1).1 with
  | ok result =>
    rw [ho] at h
    cases h
    refine ⟨?_, rfl⟩
    show p.2 ++ [Call.format e text options (c.format e text options p.1).1] = _
    rw [ho]
  | error fault =>
    rw [ho] at h
    simp only at h ⊢
    rcases hl : error c.watched ("Error formatting document. " ++ fault.message)
      (c.watched.format e text options p).2 with ⟨l, q⟩
    cases l with
    | ok u =>
      rw [bind_ok hl] at h ⊢
      cases h
      refine ⟨?_, rfl⟩
      show q.2 = _
      obtain ⟨_, -, hq⟩ | ⟨fault', hfault, -⟩ := faultNoted_cases _ (c.log _)
        (c.watched.format e text options p).2
      · have hq : q.2 = p.2 ++ [Call.format e text options (c.format e text options p.1).1] :=
          (congrArg (fun x => x.2.2) hl).symm.trans hq
        rw [hq, ho]
      · cases (congrArg Prod.fst hl).symm.trans hfault
    | error f =>
      rw [bind_error hl] at h
      cases h

/-- Behind the gates one call formats, and before it none does. -/
theorem format_noted {text : String} {p : σ × List (Call ε)} {result : Option String}
    (h : (format c.watched (fun uri => noted (.settings uri) (fetch uri)) text d request p).1 =
      .ok result) :
    let q := (format c.watched (fun uri => noted (.settings uri) (fetch uri)) text d request p).2
    (result = none ∧ Quiet p q) ∨
      ∃ outcome, q.2.filterMap Call.formatted? = p.2.filterMap Call.formatted? ++ [outcome] ∧
        result = some (outcome.toOption.getD text) := by
  have hreach : Reached c.watched Quiet (fun _ => True) text ((d.path).toOption.getD "") request p
      (format c.watched (fun uri => noted (.settings uri) (fetch uri)) text d request p) := by
    unfold format announce
    refine .bind quiet_moving (P := fun path _ => d.path = .ok path) ?_ fun path q _ hpath => ?_
    · exact .bind quiet_moving ((quiet_log _).runs p) fun _ q _ _ =>
        .ofExcept quiet_moving fun _ h => h
    · rw [hpath]
      refine .bind quiet_moving (.ofMoves (quiet_noted (fun _ => rfl) _ q)) fun outcome u _ _ => ?_
      exact complete_reached quiet_moving quiet_log d (fun settings _ => watched_steady settings)
        trivial
  intro q
  cases hreach with
  | stopped hquiet hn =>
    refine .inl ⟨?_, hquiet⟩
    cases result with
    | none => rfl
    | some r => exact absurd h (hn r)
  | formats t e parser settings config ht _ hp =>
    right
    have hq : q = _ := congrArg Prod.snd hp
    rw [hp] at h
    revert h hq
    generalize Options.merged _ parser settings config request = merged
    intro h hq
    rcases hf : formatted c.watched e text merged t with ⟨r, u⟩
    cases r with
    | error f =>
      rw [bind_error hf] at h
      cases h
    | ok r =>
      rw [bind_ok hf] at h hq
      obtain ⟨outcome, hu, hr⟩ := formatted_noted e text merged t (r := r) (by rw [hf])
      refine ⟨outcome, ?_, ?_⟩
      · rw [hq]
        show u.2.filterMap Call.formatted? = _
        rw [hf] at hu
        rw [hu, List.filterMap_append, show t.2.filterMap Call.formatted? = _ from ht]
        rfl
      · cases h
        rw [hr]

/-! ## Answers -/

theorem editsFor_some (d : Snapshot) (r : String) :
    editsFor d (some r) = if r = d.text then [] else [TextEdit.between d r] := by
  simp only [editsFor, TextEdit.isEmpty_between_iff]

theorem answers_editsFor (d : Snapshot) (r : String) : Answers d (some r) (editsFor d (some r)) := by
  rw [editsFor_some]
  by_cases h : r = d.text
  · subst h
    rw [if_pos rfl]
    exact .same
  · rw [if_neg h]
    exact .edit h (TextEdit.apply_between d r) (TextEdit.applyUnits_between d r)

theorem provideEdits_answers {s : σ} {edits : List TextEdit}
    (h : (provideEdits c fetch d request s).1 = .ok edits) :
    ((calls c fetch d request s).filterMap Call.formatted?).length ≤ 1 ∧
      Answers d (returned (calls c fetch d request s)) edits := by
  rw [← watch_fst] at h
  unfold calls returned
  revert h
  unfold watch provideEdits
  rcases hf : format c.watched (fun uri => noted (.settings uri) (fetch uri)) d.text d request (s, [])
    with ⟨r, q⟩
  cases r with
  | error f =>
    rw [bind_error hf]
    intro h
    cases h
  | ok result =>
    rw [bind_ok hf]
    intro h
    obtain rfl : editsFor d result = edits := by cases h; rfl
    show (q.2.filterMap Call.formatted?).length ≤ 1 ∧
      Answers d ((q.2.filterMap Call.formatted?).findSome? Except.toOption) (editsFor d result)
    have hfst : (format c.watched (fun uri => noted (.settings uri) (fetch uri)) d.text d request
        (s, [])).1 = .ok result := by rw [hf]
    have hn := format_noted fetch hfst
    rw [hf] at hn
    obtain ⟨rfl, hq⟩ | ⟨outcome, hq, rfl⟩ := hn
    · rw [show q.2.filterMap Call.formatted? = [] from hq]
      exact ⟨Nat.zero_le 1, .nothing⟩
    · rw [show q.2.filterMap Call.formatted? = [outcome] from hq]
      refine ⟨Nat.le_refl 1, ?_⟩
      cases outcome with
      | ok r => exact answers_editsFor d r
      | error f =>
        show Answers d none (editsFor d (some d.text))
        rw [editsFor_some, if_pos rfl]
        exact .nothing

end Pipeline

end FormatServer
