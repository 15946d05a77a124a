import FormatServer.Proofs.Pipeline.Calls

/-!
# The pipeline of a virtual document

A document that is no file passes the gates of the ignore file and the file information without
anyone being asked (`inspectAndFormat_virtual`). Where it has no local configuration either, what is
left of the pipeline is the engine, its languages and the call that formats, with the options of the
client (`complete_virtual`, `complete_virtual_moves`).
-/

set_option autoImplicit false

namespace FormatServer

open Act

variable {σ ε : Type}

/-- A call that formatting a virtual document may make: none about a file, and with no options but
those of the client. A record that cannot be made asks nothing. -/
inductive Call.Virtual (d : Snapshot) (text path : String) (request : FormatRequest)
    (settings : Settings) : Call ε → Prop
  | localConfig : Virtual d text path request settings (.localConfig d settings (.ok .missing))
  | engine (outcome : Except Fault (Option ε)) :
      Virtual d text path request settings (.engine path settings outcome)
  | languages (e : ε) (outcome : Except Fault (List Language)) :
      Virtual d text path request settings (.languages e outcome)
  | format (e : ε) (parser : Json) (outcome : Except Fault String) :
      Virtual d text path request settings
        (.format e text (Options.merged path parser settings .missing request) outcome)
  | unlogged (entry : LogEntry) (fault : Fault) :
      Virtual d text path request settings (.unlogged entry fault)

/-- The collaborators that are asked for more than an answer of nothing once a virtual document has its
engine. -/
def Collaborators.remaining (c : Collaborators σ ε) : Collaborators σ ε :=
  { c with
    localConfig := fun _ _ => pure .missing
    engine := fun _ _ => pure none
    ignoreFile := fun _ _ => pure none
    fileInfo := fun _ _ _ => throw .malformedUri }

namespace Pipeline

variable {c : Collaborators σ ε} {d : Snapshot} {text path : String} {request : FormatRequest}
  {settings : Settings}

/-! ## Gates that are passed -/

theorem ignoreFile_virtual (c : Collaborators σ ε) (hd : d.isFile = false) (path : String)
    (settings : Settings) : ignoreFile c d path settings = pure none := by
  rw [ignoreFile, hd, Bool.and_false]
  rfl

theorem inspect_virtual (c : Collaborators σ ε) (hd : d.isFile = false) (e : ε) (path : String)
    (settings : Settings) (file? : Option String) :
    inspect c e d path settings file? = pure .virtual := by
  rw [inspect, hd]
  rfl

theorem inspectAndFormat_virtual (c : Collaborators σ ε) (hd : d.isFile = false) (text path : String)
    (settings : Settings) (config : LocalConfig) (request : FormatRequest) (e : ε) :
    inspectAndFormat c text d path settings config request e =
      parseAndFormat c text d path settings config request e .virtual := by
  rw [inspectAndFormat, ignoreFile_virtual c hd, pure_bind, inspect_virtual c hd, pure_bind]
  simp only [Inspection.ignored, Bool.and_false]
  rfl

/-- What formatting a virtual document does once it is known that nothing configures it. -/
def formatVirtual (c : Collaborators σ ε) (text : String) (d : Snapshot) (path : String)
    (request : FormatRequest) (settings : Settings) : Act σ (Option String) := do
  match ← c.engine path settings with
  | none =>
    error c "Prettier could not be loaded. See previous logs for more information."
    return none
  | some e => parseAndFormat c text d path settings .missing request e .virtual

theorem withSettings_virtual (hd : d.isFile = false) (text path : String) (request : FormatRequest)
    {s t : σ} (hlocal : c.localConfig d settings s = (.ok .missing, t)) :
    withSettings c text d path request settings s =
      formatVirtual c text d path request settings t := by
  unfold withSettings formatVirtual
  rw [bind_ok hlocal]
  simp only [inspectAndFormat_virtual c hd]
  rfl

theorem complete_virtual (hd : d.isFile = false) (text path : String) (request : FormatRequest)
    {s t : σ} (hlocal : c.localConfig d settings s = (.ok .missing, t)) :
    complete c text d path request (.ok settings) s =
      formatVirtual c text d path request settings t :=
  withSettings_virtual hd text path request hlocal

/-! ## What is left -/

section
variable {R : σ → σ → Prop} (hR : Moving R) (hlog : ∀ r, Moves R (c.log r))
  (hengine : Moves R (c.engine path settings)) (hlanguages : ∀ e, Moves R (c.languages e))
  (hformat : ∀ e parser,
    Moves R (c.format e text (Options.merged path parser settings .missing request)))
include hR hlanguages

theorem remaining_steady : c.remaining.Steady (fun _ => True) R (fun _ => True) (fun _ => True)
    settings where
  keeps _ _ := trivial
  localConfig _ s _ := hR.refl s
  engine _ _ _ := .pure hR fun _ _ => trivial
  ignoreFile _ _ _ := .pure hR fun _ _ => trivial
  fileInfo _ _ _ s _ _ _ := hR.refl s
  languages e s _ _ := hlanguages e s

include hlog hformat

theorem parseAndFormat_moves (e : ε) (d : Snapshot) (i : Inspection) :
    Moves R (parseAndFormat c text d path settings .missing request e i) := by
  have hsteady : c.remaining.Steady _ R _ _ settings := remaining_steady hR hlanguages
  have hparser : Moves R (parser? c e d path i) := fun s =>
    (parser_runs (c := c.remaining) hR hlog hsteady trivial d i (s := s) trivial).moves
  refine .bind hR hparser fun parser? => ?_
  cases parser? with
  | none => exact .bind hR (hlog _) fun _ => .pure hR _
  | some parser =>
    intro s
    refine (Runs.bind hR (options_runs hR hlog parser .missing s) (Q := fun _ _ => True)
      fun merged t _ hmerged => ?_).moves
    rw [hmerged]
    exact (Moves.bind hR (formatted_moves hR hlog (hformat e parser)) fun _ => .pure hR _).runs t

include hengine

theorem formatVirtual_moves (d : Snapshot) :
    Moves R (formatVirtual c text d path request settings) := by
  refine .bind hR hengine fun e? => ?_
  cases e? with
  | none => exact .bind hR (hlog _) fun _ => .pure hR _
  | some e => exact parseAndFormat_moves hR hlog hlanguages hformat e d .virtual

end

/-! ## Calls -/

/-- Whatever has been noted since is in `P`. -/
def Notes (P : Call ε → Prop) (p q : σ × List (Call ε)) : Prop := ∀ call ∈ q.2, call ∈ p.2 ∨ P call

theorem notes_moving (P : Call ε → Prop) :
    Moving (Notes P : σ × List (Call ε) → σ × List (Call ε) → Prop) where
  refl _ _ := .inl
  trans h h' call hcall := (h' call hcall).elim (h call) .inr

theorem noted_notes {P : Call ε → Prop} {α : Type} {note : Except Fault α → Call ε}
    (hnote : ∀ outcome, P (note outcome)) (x : Act σ α) : Moves (Notes P) (noted note x) := by
  intro p call hcall
  refine (List.mem_append.1 hcall).imp_right fun hnew => ?_
  rw [List.mem_singleton.1 hnew]
  exact hnote _

theorem faultNoted_notes {P : Call ε → Prop} {α : Type} {note : Fault → Call ε}
    (hnote : ∀ fault, P (note fault)) (x : Act σ α) : Moves (Notes P) (faultNoted note x) := by
  intro p call hcall
  obtain ⟨_, -, h⟩ | ⟨fault, -, h⟩ := faultNoted_cases note x p
  · exact .inl (h ▸ hcall)
  · refine (List.mem_append.1 (h ▸ hcall)).imp_right fun hnew => ?_
    rw [List.mem_singleton.1 hnew]
    exact hnote fault

/-- With a note of every call a request goes on as without. -/
theorem complete_watched (c : Collaborators σ ε) (text : String) (d : Snapshot) (path : String)
    (request : FormatRequest) (outcome : Except Fault Settings) (s : σ) :
    ∃ notes, complete c.watched text d path request outcome (s, []) =
      ((complete c text d path request outcome s).1,
        (complete c text d path request outcome s).2, notes) := by
  have hsame : SameEnd Eq outcome outcome := .refl (fun _ => rfl) outcome
  obtain ⟨hstate, hend⟩ := complete_alike c.watched_alike text d path request hsame s (s, []) rfl
  exact ⟨_, Prod.ext hend.eq.symm (Prod.ext hstate rfl)⟩

/-- Without settings no call is made, if a message without data can be logged. -/
theorem complete_error_calls (c : Collaborators σ ε)
    (hplain : ∀ level message s, (c.log { level, message } s).1 = .ok ()) (text : String)
    (d : Snapshot) (path : String) (request : FormatRequest) (e : Fault) (s : σ) :
    (complete c.watched text d path request (.error e) (s, [])).2.2 = [] := by
  unfold complete
  rw [bind_apply, recover_apply]
  split
  · next answer p h =>
    obtain ⟨hanswer, rfl⟩ := Prod.mk.inj h
    cases answer with
    | ok settings => cases settled_ok.1 hanswer
    | error f =>
      have hlog : error c.watched f.format (s, []) = (.ok (), _, []) :=
        faultNoted_ok (hplain Level.error f.format s)
      show ((do error c.watched f.format; return none : Act (σ × List (Call ε)) (Option String))
        (s, [])).2.2 = []
      rw [bind_ok hlog]
      rfl
  · next h =>
    obtain ⟨-, rfl⟩ := Prod.mk.inj h
    rfl

/-- The calls that are made for a virtual document. -/
theorem complete_virtual_calls (hd : d.isFile = false) (text path : String)
    (request : FormatRequest) {s t : σ} (hlocal : c.localConfig d settings s = (.ok .missing, t)) :
    ∀ call ∈ (complete c.watched text d path request (.ok settings) (s, [])).2.2,
      call.Virtual d text path request settings := by
  have hwatched : c.watched.localConfig d settings (s, []) =
      (.ok .missing, t, [.localConfig d settings (.ok .missing)]) := by
    show ((c.localConfig d settings s).1, (c.localConfig d settings s).2,
      [Call.localConfig d settings (c.localConfig d settings s).1]) = _
    rw [hlocal]
  have hmoves : Moves (Notes (Call.Virtual d text path request settings))
      (formatVirtual c.watched text d path request settings) :=
    formatVirtual_moves (notes_moving _) (fun _ => faultNoted_notes (.unlogged _) _)
      (noted_notes .engine _) (fun e => noted_notes (.languages e) _)
      (fun e parser => noted_notes (.format e parser) _) d
  rw [complete_virtual hd text path request hwatched]
  intro call hcall
  obtain hbefore | hnew := hmoves _ call hcall
  · rw [List.mem_singleton.1 hbefore]
    exact .localConfig
  · exact hnew

end Pipeline

end FormatServer
