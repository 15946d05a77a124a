import FormatServer.Pipeline
import FormatServer.Proofs.Action

/-!
# Errors that the pipeline contains

Each collaborator may fail in its own way (`Collaborators.Contained`): asking the engine about a file
and about its languages ends in failures of the engine, formatting in any fault. The pipeline has a
gate for each, so that a request ends with or without a text (`complete_returns`). The faults that no
gate knows (`S`) go on, and so do those of the logger, which is given the entries that a request logs
(`Logs`).
-/

set_option autoImplicit false

namespace FormatServer

open Act

variable {σ ε : Type}

/-- The parser is one that the engine named for a file, or one of its languages. -/
inductive Collaborators.Names (c : Collaborators σ ε) (I : σ → Prop) : Json → Prop
  | fileInfo {e : ε} {path : String} {options : Fields} {info : FileInfo} {parser : Json} :
      Gives I (c.fileInfo e path options) info →
      info.inferredParser.bind Json.ifTruthy = some parser → Names c I parser
  | languages {e : ε} {table : List Language} {path : String} {languageId : String}
      {parser : Json} : Gives I (c.languages e) table →
      (Language.parserFor? table (some path) languageId).bind Json.ifTruthy = some parser →
      Names c I parser

/-- What a request logs under some settings: messages, and two entries with data, which come from the
collaborators. -/
inductive Collaborators.Logs (c : Collaborators σ ε) (I : σ → Prop) (d : Snapshot)
    (request : FormatRequest) (settings : Settings) : LogEntry → Prop
  | plain {level : Int} {message : String} : Logs c I d request settings { level, message }
  | fileInfo {e : ε} {path : String} {options : Fields} {info : FileInfo} :
      Gives I (c.fileInfo e path options) info →
      Logs c I d request settings ⟨Level.info, "File Info:", info.toJson⟩
  | options {path : String} {parser : Json} {config : LocalConfig} :
      Gives I (c.localConfig d settings) config → c.Names I parser →
      Logs c I d request settings
        ⟨Level.info, "Prettier Options:", .obj (Options.merged path parser settings config request)⟩

/-- Under some settings the collaborators keep to the states in `I` and have no faults in a request for
`d` but those that the pipeline expects of them and those in `S`. -/
structure Collaborators.Contained (c : Collaborators σ ε) (I : σ → Prop) (S : Fault → Prop)
    (d : Snapshot) (request : FormatRequest) (settings : Settings) : Prop where
  log : ∀ entry, c.Logs I d request settings entry → Returns I S (c.log entry)
  localConfig : Returns I S (c.localConfig d settings)
  engine : ∀ path, Returns I S (c.engine path settings)
  ignoreFile : settings.ignorePath.truthy = true →
    ∀ path, Returns I S (c.ignoreFile path settings.ignorePath)
  fileInfo : ∀ e path options,
    Act.Contained I (fun _ => True) (FailsOr .engine S) (c.fileInfo e path options)
  languages : ∀ e, Act.Contained I (fun _ => True) (FailsOr .engine S) (c.languages e)
  format : ∀ e text options, Act.Contained I (fun _ => True) (fun _ => True) (c.format e text options)

namespace Pipeline

section
variable {c : Collaborators σ ε} {I : σ → Prop} {S : Fault → Prop} {d : Snapshot}
  {settings : Settings} {path text : String} {request : FormatRequest}
variable (hc : c.Contained I S d request settings)
include hc

theorem options_returns {parser : Json} {config : LocalConfig}
    (hconfig : Gives I (c.localConfig d settings) config) (hparser : c.Names I parser) :
    Returns I S (options c path parser settings config request) := by
  have hmerged : Returns I S (c.log ⟨Level.info, "Prettier Options:",
      .obj (Options.merged path parser settings config request)⟩) :=
    hc.log _ (.options hconfig hparser)
  unfold options info
  cases config <;>
    exact .bind (hc.log _ .plain) fun _ _ => .bind hmerged fun _ _ => .pure trivial

theorem formatted_returns (e : ε) (options : Fields) :
    Returns I S (formatted c e text options) := by
  unfold formatted error
  refine .bind (hc.format e text options).attempt fun outcome _ => ?_
  cases outcome with
  | ok result => exact .pure trivial
  | error fault => exact .bind (hc.log _ .plain) fun _ _ => .pure trivial

theorem ignoreFile_returns : Returns I S (ignoreFile c d path settings) := by
  unfold ignoreFile info
  split
  · next h =>
    rw [Bool.and_eq_true] at h
    refine .bind (hc.ignoreFile h.1 path) fun file? _ => ?_
    cases file? with
    | some file => exact .bind (hc.log _ .plain) fun _ _ => .pure trivial
    | none => exact .pure trivial
  · exact .pure trivial

/-- What is known of a file the engine has said. -/
theorem inspect_returns (e : ε) (file? : Option String) :
    Contained I (fun inspection => ∀ parser, inspection.parser? = some parser → c.Names I parser) S
      (inspect c e d path settings file?) := by
  unfold inspect error
  split
  · refine .bind (hc.fileInfo e path _).gives.recover fun found hfound => ?_
    cases found with
    | ok info =>
      obtain ⟨-, hgives⟩ : True ∧ Gives I _ info := by cases hfound; assumption
      exact .bind (hc.log _ (.fileInfo hgives)) fun _ _ => .pure fun _ => .fileInfo hgives
    | error f => exact .bind (hc.log _ .plain) fun _ _ => .pure fun _ h => by cases h
  · exact .pure fun _ h => by cases h

theorem languageParser_returns (e : ε) :
    Contained I (fun parser? => ∀ parser, parser?.bind Json.ifTruthy = some parser →
      c.Names I parser) S (languageParser c e d path) := by
  unfold languageParser error
  refine .bind (hc.log _ .plain) fun _ _ =>
    .bind (hc.languages e).gives.recover fun outcome houtcome => ?_
  cases outcome with
  | ok table =>
    obtain ⟨-, hgives⟩ : True ∧ Gives I _ table := by cases houtcome; assumption
    exact .pure fun _ => .languages hgives
  | error f => exact .bind (hc.log _ .plain) fun _ _ => .pure fun _ h => by cases h

theorem parser_returns (e : ε) {inspection : Inspection}
    (hi : ∀ parser, inspection.parser? = some parser → c.Names I parser) :
    Contained I (fun parser? => ∀ parser, parser? = some parser → c.Names I parser) S
      (parser? c e d path inspection) := by
  unfold parser?
  split
  · next parser hparser =>
    refine .pure fun _ h => ?_
    cases h
    exact hi parser hparser
  · split
    · exact .pure fun _ h => by cases h
    · exact .bind (languageParser_returns hc e) fun _ h => .pure h

theorem parseAndFormat_returns {config : LocalConfig}
    (hconfig : Gives I (c.localConfig d settings) config) (e : ε) {inspection : Inspection}
    (hi : ∀ parser, inspection.parser? = some parser → c.Names I parser) :
    Returns I S (parseAndFormat c text d path settings config request e inspection) := by
  unfold parseAndFormat error
  refine .bind (parser_returns hc e hi) fun parser? hparser => ?_
  cases parser? with
  | none => exact .bind (hc.log _ .plain) fun _ _ => .pure trivial
  | some parser =>
    refine .bind (options_returns hc hconfig (hparser parser rfl)) fun merged _ => ?_
    exact .bind (formatted_returns hc e merged) fun _ _ => .pure trivial

theorem inspectAndFormat_returns {config : LocalConfig}
    (hconfig : Gives I (c.localConfig d settings) config) (e : ε) :
    Returns I S (inspectAndFormat c text d path settings config request e) := by
  have shut : Returns I S (do
      info c "File is ignored, skipping."
      return none : Act σ (Option String)) := .bind (hc.log _ .plain) fun _ _ => .pure trivial
  unfold inspectAndFormat
  refine .bind (ignoreFile_returns hc) fun file? _ =>
    .bind (inspect_returns hc e file?) fun inspection hi => ?_
  cases inspection with
  | failed => exact .pure trivial
  | virtual =>
    dsimp only
    split
    · exact shut
    · exact parseAndFormat_returns hc hconfig e hi
  | known found =>
    dsimp only
    split
    · exact shut
    · exact parseAndFormat_returns hc hconfig e hi

theorem withSettings_returns : Returns I S (withSettings c text d path request settings) := by
  unfold withSettings info error
  refine .bind hc.localConfig.gives fun config hconfig => ?_
  split
  · exact .bind (hc.log _ .plain) fun _ _ => .pure trivial
  · refine .bind (hc.engine path) fun e? _ => ?_
    cases e? with
    | none => exact .bind (hc.log _ .plain) fun _ _ => .pure trivial
    | some e => exact inspectAndFormat_returns hc hconfig.2 e

end

/-- With settings, or a failure to fetch them, a request ends without a fault but those in `S`. -/
theorem complete_returns {c : Collaborators σ ε} {I : σ → Prop} {S : Fault → Prop} {d : Snapshot}
    {P : Settings → Prop} {outcome : Except Fault Settings} {request : FormatRequest}
    (hlog : ∀ level message, Returns I S (c.log { level, message }))
    (hc : ∀ settings, outcome = .ok settings → P settings → c.Contained I S d request settings)
    (houtcome : EndsIn P (FailsAt .settings) outcome) (text path : String) :
    Returns I S (complete c text d path request outcome) := by
  cases houtcome with
  | @ok settings hs =>
    show Returns I S (withSettings c text d path request settings)
    exact withSettings_returns (hc settings rfl hs)
  | error he =>
    have hfailed : Contained I (fun _ : Settings => False) (FailsOr .settings S)
        (Act.ofExcept (.error _)) := .ofExcept (.error (.inl he))
    unfold complete error
    refine .bind hfailed.recover fun settled hsettled => ?_
    cases hsettled with
    | ok h => exact h.elim
    | error _ => exact .bind (hlog _ _) fun _ _ => .pure trivial

end Pipeline

end FormatServer
