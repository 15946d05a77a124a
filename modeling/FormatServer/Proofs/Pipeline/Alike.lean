import FormatServer.Pipeline
import FormatServer.Proofs.Action
import FormatServer.Proofs.Options

/-!
# The pipeline sees its surroundings through the collaborators only

Where two sets of collaborators act alike, on states that may differ in kind, so does the pipeline
(`complete_alike`, `provideEdits_alike`). The settings of the two runs may differ too, in whatever
the pipeline and the collaborators do not look at.
-/

set_option autoImplicit false

namespace FormatServer

open Act

variable {σ τ ε : Type}

/-- The pipeline itself makes the same of both settings. -/
structure Settings.SameUse (s t : Settings) : Prop where
  ignorePath : s.ignorePath = t.ignorePath
  withNodeModules : s.withNodeModules = t.withNodeModules
  formattingOptions : s.formattingOptions = t.formattingOptions

/-- Two sets of collaborators act alike, on settings related by `S`. -/
structure Collaborators.Alike (R : σ → τ → Prop) (S : Settings → Settings → Prop)
    (c : Collaborators σ ε) (c' : Collaborators τ ε) : Prop where
  use : ∀ {s t}, S s t → s.SameUse t
  log : ∀ r, Act.Alike R Eq (c.log r) (c'.log r)
  localConfig : ∀ d {s t}, S s t → Act.Alike R Eq (c.localConfig d s) (c'.localConfig d t)
  engine : ∀ path {s t}, S s t → Act.Alike R Eq (c.engine path s) (c'.engine path t)
  ignoreFile : ∀ path name, Act.Alike R Eq (c.ignoreFile path name) (c'.ignoreFile path name)
  fileInfo : ∀ e path options, Act.Alike R Eq (c.fileInfo e path options) (c'.fileInfo e path options)
  languages : ∀ e, Act.Alike R Eq (c.languages e) (c'.languages e)
  format : ∀ e text options, Act.Alike R Eq (c.format e text options) (c'.format e text options)

theorem Settings.SameUse.merged {s t : Settings} (h : s.SameUse t) (path : String) (parser : Json)
    (config : LocalConfig) (request : FormatRequest) :
    Options.merged path parser s config request = Options.merged path parser t config request :=
  Options.merged_of_formattingOptions h.formattingOptions path parser config request

theorem Settings.SameUse.fileInfoOptions {s t : Settings} (h : s.SameUse t) (file? : Option String) :
    Pipeline.fileInfoOptions s file? = Pipeline.fileInfoOptions t file? := by
  simp only [Pipeline.fileInfoOptions, h.withNodeModules]

namespace Pipeline

variable {R : σ → τ → Prop} {S : Settings → Settings → Prop} {c : Collaborators σ ε}
  {c' : Collaborators τ ε} {s t : Settings}
variable (hc : c.Alike R S c')
include hc

/-! ## Gates -/

theorem ignoreFile_alike (h : S s t) (d : Snapshot) (path : String) :
    Act.Alike R Eq (ignoreFile c d path s) (ignoreFile c' d path t) := by
  unfold ignoreFile
  rw [(hc.use h).ignorePath]
  split
  · refine .bind (hc.ignoreFile path t.ignorePath) fun file? _ e => ?_
    subst e
    cases file? with
    | none => exact .pure rfl
    | some file => exact .bind (hc.log _) fun _ _ _ => .pure rfl
  · exact .pure rfl

theorem inspect_alike (h : S s t) (e : ε) (d : Snapshot) (path : String) (file? : Option String) :
    Act.Alike R Eq (inspect c e d path s file?) (inspect c' e d path t file?) := by
  unfold inspect
  rw [(hc.use h).fileInfoOptions]
  split
  · refine .bind (.recover (hc.fileInfo e path _) .engine) fun o o' ho => ?_
    obtain rfl := ho.eq
    cases o with
    | ok info => exact .bind (hc.log _) fun _ _ _ => .pure rfl
    | error f => exact .bind (hc.log _) fun _ _ _ => .pure rfl
  · exact .pure rfl

theorem parser_alike (e : ε) (d : Snapshot) (path : String) (i : Inspection) :
    Act.Alike R Eq (parser? c e d path i) (parser? c' e d path i) := by
  unfold parser? languageParser
  split
  · exact .pure rfl
  · split
    · exact .pure rfl
    · refine .bind (P := Eq) ?_ fun found _ h => by subst h; exact .pure rfl
      refine .bind (hc.log _) fun _ _ _ => ?_
      refine .bind (.recover (hc.languages e) .engine) fun o o' ho => ?_
      obtain rfl := ho.eq
      cases o with
      | ok table => exact .pure rfl
      | error f => exact .bind (hc.log _) fun _ _ _ => .pure rfl

/-! ## Behind the gates -/

theorem options_alike (h : S s t) (path : String) (parser : Json) (config : LocalConfig)
    (request : FormatRequest) :
    Act.Alike R Eq (options c path parser s config request)
      (options c' path parser t config request) := by
  unfold options
  rw [(hc.use h).merged]
  cases config <;>
    exact .bind (hc.log _) fun _ _ _ => .bind (hc.log _) fun _ _ _ => .pure rfl

theorem formatted_alike (e : ε) (text : String) (options : Fields) :
    Act.Alike R Eq (formatted c e text options) (formatted c' e text options) := by
  unfold formatted
  refine .bind (.attempt (hc.format e text options)) fun o o' ho => ?_
  obtain rfl := ho.eq
  cases o with
  | ok result => exact .pure rfl
  | error fault => exact .bind (hc.log _) fun _ _ _ => .pure rfl

theorem parseAndFormat_alike (h : S s t) (text : String) (d : Snapshot) (path : String)
    (config : LocalConfig) (request : FormatRequest) (e : ε) (i : Inspection) :
    Act.Alike R Eq (parseAndFormat c text d path s config request e i)
      (parseAndFormat c' text d path t config request e i) := by
  unfold parseAndFormat
  refine .bind (parser_alike hc e d path i) fun parser? _ hp => ?_
  subst hp
  cases parser? with
  | none => exact .bind (hc.log _) fun _ _ _ => .pure rfl
  | some parser =>
    refine .bind (options_alike hc h path parser config request) fun merged _ hm => ?_
    subst hm
    exact .bind (formatted_alike hc e text merged) fun r _ hr => by subst hr; exact .pure rfl

theorem inspectAndFormat_alike (h : S s t) (text : String) (d : Snapshot) (path : String)
    (config : LocalConfig) (request : FormatRequest) (e : ε) :
    Act.Alike R Eq (inspectAndFormat c text d path s config request e)
      (inspectAndFormat c' text d path t config request e) := by
  unfold inspectAndFormat
  refine .bind (ignoreFile_alike hc h d path) fun file? _ hf => ?_
  subst hf
  refine .bind (inspect_alike hc h e d path file?) fun i _ hi => ?_
  subst hi
  have rest : Act.Alike R Eq
      (if (!request.force && i.ignored) = true then do
          info c "File is ignored, skipping."
          return none
        else parseAndFormat c text d path s config request e i)
      (if (!request.force && i.ignored) = true then do
          info c' "File is ignored, skipping."
          return none
        else parseAndFormat c' text d path t config request e i) := by
    split
    · exact .bind (hc.log _) fun _ _ _ => .pure rfl
    · exact parseAndFormat_alike hc h text d path config request e i
  cases i with
  | failed => exact .pure rfl
  | virtual => exact rest
  | known info => exact rest

theorem withSettings_alike (h : S s t) (text : String) (d : Snapshot) (path : String)
    (request : FormatRequest) :
    Act.Alike R Eq (withSettings c text d path request s) (withSettings c' text d path request t) := by
  unfold withSettings
  refine .bind (hc.localConfig d h) fun config _ e => ?_
  subst e
  split
  · exact .bind (hc.log _) fun _ _ _ => .pure rfl
  · refine .bind (hc.engine path h) fun e? _ he => ?_
    subst he
    cases e? with
    | none => exact .bind (hc.log _) fun _ _ _ => .pure rfl
    | some e => exact inspectAndFormat_alike hc h text d path config request e

/-! ## Requests -/

theorem announce_alike (d : Snapshot) : Act.Alike R Eq (announce c d) (announce c' d) := by
  unfold announce
  exact .bind (hc.log _) fun _ _ _ => .ofExcept (.refl (fun _ => rfl) _)

theorem complete_alike (text : String) (d : Snapshot) (path : String) (request : FormatRequest)
    {o o' : Except Fault Settings} (h : SameEnd S o o') :
    Act.Alike R Eq (complete c text d path request o) (complete c' text d path request o') := by
  unfold complete
  refine .bind (.recover (.ofExcept h) .settings) fun settled settled' hs => ?_
  cases hs with
  | ok hst => exact withSettings_alike hc hst text d path request
  | error f => exact .bind (hc.log _) fun _ _ _ => .pure rfl

section
variable {fetch : String → Act σ (Except Fault Settings)}
  {fetch' : String → Act τ (Except Fault Settings)}
  (hf : ∀ uri, Act.Alike R (SameEnd S) (fetch uri) (fetch' uri))
include hf

theorem format_alike (text : String) (d : Snapshot) (request : FormatRequest) :
    Act.Alike R Eq (format c fetch text d request) (format c' fetch' text d request) := by
  unfold format
  refine .bind (announce_alike hc d) fun path _ e => ?_
  subst e
  exact .bind (hf d.uri) fun o o' ho => complete_alike hc text d path request ho

theorem provideEdits_alike (d : Snapshot) (request : FormatRequest) :
    Act.Alike R Eq (provideEdits c fetch d request) (provideEdits c' fetch' d request) := by
  unfold provideEdits
  exact .bind (format_alike hc hf d.text d request) fun result _ e => by subst e; exact .pure rfl

end

end Pipeline

end FormatServer
