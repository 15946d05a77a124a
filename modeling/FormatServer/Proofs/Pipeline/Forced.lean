import FormatServer.Proofs.Pipeline.Gates

/-!
# What force does

A forced request passes two gates that may be shut to others: a file that is ignored, and a pragma
that is required. `Forces` compares a request with itself forced, from the same state and with the
same collaborators, by the calls that both make; `provideEdits_forces` proves it of every request
whose records can be made.

The two runs are one until the first place that reads the flag, so the proof goes along the
definitions once, with the calls noted so far (`Forks`), and describes where the runs part
(`Beside`).
-/

set_option autoImplicit false

namespace FormatServer

open Act

variable {σ ε : Type}

/-- The request, forced or not. -/
def FormatRequest.withForce (request : FormatRequest) (force : Bool) : FormatRequest :=
  { request with force }

/-! ## Options -/

namespace Options

/-- The same options, but for a pragma that is no longer required. -/
inductive PragmaDropped (options : Fields) : Fields → Prop
  | same : PragmaDropped options options
  | dropped : options.get? "requirePragma" = some (.bool true) →
      PragmaDropped options (options.set "requirePragma" (.bool false))

theorem dropPragma_withForce (request : FormatRequest) (options : Fields) :
    PragmaDropped (dropPragma (request.withForce false) options)
      (dropPragma (request.withForce true) options) := by
  unfold dropPragma
  split
  · next h => exact .dropped h
  · exact .same

theorem merged_withForce (path : String) (parser : Json) (settings : Settings)
    (config : LocalConfig) (request : FormatRequest) :
    PragmaDropped (merged path parser settings config (request.withForce false))
      (merged path parser settings config (request.withForce true)) :=
  dropPragma_withForce request _

end Options

/-! ## Calls -/

/-- The engine said that the file is ignored. -/
def Call.ignored : Call ε → Bool
  | fileInfo _ _ _ (.ok info) => info.ignored
  | _ => false

namespace Pipeline

/-- The engine is asked to format. -/
def Formats (calls : List (Call ε)) : Prop :=
  ∃ e text options outcome, .format e text options outcome ∈ calls

/-- How a parser is determined: the calls that it takes, and the parser if there is one. The engine
named it, or it is looked up by the language, and plain text has none. -/
inductive Determined (d : Snapshot) (e : ε) : Option Json → List (Call ε) → Option Json → Prop
  | inferred (parser : Json) : Determined d e (some parser) [] (some parser)
  | plain : d.languageId = plainText → Determined d e none [] none
  | language (outcome : Except Fault (List Language)) : d.languageId ≠ plainText →
      Determined d e none [.languages e outcome] (outcome.toOption.bind d.parserIn?)

/-- The call that formats a document once its parser is determined. -/
def formatCall (d : Snapshot) (request : FormatRequest) (path : String) (settings : Settings)
    (config : LocalConfig) (e : ε) (outcome : Except Fault String) (parser : Json) : Call ε :=
  .format e d.text (Options.merged path parser settings config request) outcome

/-- A request beside the same request forced: the calls that each of them makes, and what it comes
to with the state that it leaves. -/
structure Forces (d : Snapshot) (request : FormatRequest) (calls forced : List (Call ε))
    (answer forcedAnswer : Except Fault (List TextEdit) × σ) : Prop where
  /-- Where the request reaches the engine, so it does forced, by the same calls, with the same text
  and with no other options. -/
  formats : ∀ e text options outcome, .format e text options outcome ∈ calls →
    ∃ before options' outcome', calls = before ++ [.format e text options outcome] ∧
      forced = before ++ [.format e text options' outcome'] ∧
      Options.PragmaDropped options options'
  /-- Where the request ends at a file that is ignored, it goes on forced, as far as the parser. -/
  ignored : ∀ e path asked info, .fileInfo e path asked (.ok info) ∈ calls → info.ignored = true →
    (∃ before, calls = before ++ [.fileInfo e path asked (.ok info)]) ∧ answer.1 = .ok [] ∧
    ∃ settings config determining parser? outcome,
      Found d calls path settings config e ∧
      Determined d e (info.inferredParser.bind Json.ifTruthy) determining parser? ∧
      forced = calls ++ determining ++ parser?.toList.map
        (formatCall d (request.withForce true) path settings config e outcome) ∧
      (Formats forced ↔ parser?.isSome)
  /-- Otherwise force changes nothing. -/
  otherwise : ¬ Formats calls → (∀ call ∈ calls, call.ignored = false) →
    forced = calls ∧ forcedAnswer = answer ∧ ∀ edits, answer.1 = .ok edits → edits = []
  /-- Local configuration that forbids formatting forbids it forced. -/
  barred : ∀ settings config, .localConfig d settings (.ok config) ∈ forced →
    config.allowsFormatting = false →
    ¬ Formats forced ∧ forced = calls ∧ forcedAnswer = answer ∧ answer.1 = .ok []

end Pipeline

/-! ## Two actions beside each other -/

/-- From any state, with these notes before them, the two actions end in ways related by `Q` unless one
of them is interrupted. -/
def Act.Forks {α : Type} (x y : Act (σ × List (Call ε)) α) (notes : List (Call ε))
    (Q : Except Fault α × σ × List (Call ε) → Except Fault α × σ × List (Call ε) → Prop) : Prop :=
  ∀ s, (Interrupted (x (s, notes)) ∨ Interrupted (y (s, notes))) ∨ Q (x (s, notes)) (y (s, notes))

namespace Act.Forks

variable {α β : Type} {notes : List (Call ε)}
  {Q : Except Fault β × σ × List (Call ε) → Except Fault β × σ × List (Call ε) → Prop}

/-- Both actions do the same first. -/
theorem bind {x : Act (σ × List (Call ε)) α} {P : List (Call ε) → Except Fault α → Prop}
    {f g : α → Act (σ × List (Call ε)) β} (hx : Ends x notes P)
    (ok : ∀ more a, P more (.ok a) → Forks (f a) (g a) more Q)
    (error : ∀ more e s, P more (.error e) → Q (.error e, s, more) (.error e, s, more)) :
    Forks (x >>= f) (x >>= g) notes Q := by
  intro s
  obtain h | h := hx s
  · exact .inl (.inl (h.bind f))
  · rw [bind_apply, bind_apply]
    revert h
    rcases x (s, notes) with ⟨r, t, more⟩
    cases r with
    | ok a => exact fun h => ok more a h t
    | error e => exact fun h => .inr (error more e t h)

theorem same {x : Act (σ × List (Call ε)) β} {P : List (Call ε) → Except Fault β → Prop}
    (hx : Ends x notes P) (h : ∀ more r s, P more r → Q (r, s, more) (r, s, more)) :
    Forks x x notes Q :=
  fun s => (hx s).imp .inl (h _ _ _)

/-- The actions part. -/
theorem part {x y : Act (σ × List (Call ε)) β} {P P' : List (Call ε) → Except Fault β → Prop}
    (hx : Ends x notes P) (hy : Ends y notes P')
    (h : ∀ p q, P p.2.2 p.1 → P' q.2.2 q.1 → Q p q) : Forks x y notes Q := by
  intro s
  obtain hp | hp := hx s
  · exact .inl (.inl hp)
  · obtain hq | hq := hy s
    · exact .inl (.inr hq)
    · exact .inr (h _ _ hp hq)

end Act.Forks

namespace Pipeline

/-! ## Where the runs part -/

/-- No file was ignored so far, and nothing formatted. -/
def Even (calls : List (Call ε)) : Prop := ∀ call ∈ calls, call.formatted? = none ∧
  call.ignored = false

/-- A run of the pipeline beside the same one forced. -/
inductive Beside (d : Snapshot) (request : FormatRequest) :
    Except Fault (Option String) × σ × List (Call ε) →
    Except Fault (Option String) × σ × List (Call ε) → Prop
  /-- Both end before they part. -/
  | stopped {r : Except Fault (Option String)} {s : σ} {calls : List (Call ε)} :
      Even calls → (∀ text, r ≠ .ok (some text)) → Beside d request (r, s, calls) (r, s, calls)
  /-- The file is ignored. -/
  | ignored {before : List (Call ε)} {path : String} {settings : Settings} {config : LocalConfig}
      {e : ε} {asked : Fields} {info : FileInfo} {determining : List (Call ε)}
      {parser? : Option Json} {outcome : Except Fault String} {s : σ}
      {q : Except Fault (Option String) × σ × List (Call ε)} :
      Even before → Found d before path settings config e → info.ignored = true →
      Determined d e (info.inferredParser.bind Json.ifTruthy) determining parser? →
      q.2.2 = before ++ [.fileInfo e path asked (.ok info)] ++ determining ++ parser?.toList.map
        (formatCall d (request.withForce true) path settings config e outcome) →
      Beside d request (.ok none, s, before ++ [.fileInfo e path asked (.ok info)]) q
  /-- Both format. -/
  | formatted {before : List (Call ε)} {path : String} {settings : Settings} {config : LocalConfig}
      {e : ε} {parser : Json} {outcome outcome' : Except Fault String}
      {p q : Except Fault (Option String) × σ × List (Call ε)} :
      Even before → Found d before path settings config e →
      p.2.2 = before ++ [formatCall d (request.withForce false) path settings config e outcome
        parser] →
      q.2.2 = before ++ [formatCall d (request.withForce true) path settings config e outcome'
        parser] →
      Beside d request p q

section
variable {d : Snapshot} {request : FormatRequest} {calls : List (Call ε)} {path : String}
  {settings : Settings} {config : LocalConfig} {e : ε}

theorem Even.nil : Even ([] : List (Call ε)) := fun _ h => (nomatch h)

theorem Even.append {more : List (Call ε)} (h : Even calls) (h' : Even more) :
    Even (calls ++ more) := fun call hc =>
  (List.mem_append.1 hc).elim (h call) (h' call)

theorem Even.snoc (h : Even calls) (call : Call ε) (hf : call.formatted? = none)
    (hi : call.ignored = false) : Even (calls ++ [call]) :=
  h.append fun c hc => by
    rw [List.mem_singleton.1 hc]
    exact ⟨hf, hi⟩

theorem Even.not_formats (h : Even calls) : ¬ Formats calls := by
  rintro ⟨e, text, options, outcome, hmem⟩
  cases (h _ hmem).1

theorem Found.append (h : Found d calls path settings config e) (more : List (Call ε)) :
    Found d (calls ++ more) path settings config e where
  located := h.located
  fetched := List.mem_append_left _ h.fetched
  configured := List.mem_append_left _ h.configured
  allowed := h.allowed
  loaded := List.mem_append_left _ h.loaded

theorem shut_beside {x : Act (σ × List (Call ε)) (Option String)} (h : Even calls)
    (hx : Ends x calls fun more r => more = calls ∧ r = .ok none) :
    Forks x x calls (Beside d request) :=
  .same hx fun _ _ s ⟨hmore, hr⟩ => by
    subst hmore hr
    exact .stopped h (by simp)

theorem Determined.even {inferred? parser? : Option Json} {determining : List (Call ε)}
    (h : Determined d e inferred? determining parser?) : Even determining := by
  cases h with
  | inferred => exact .nil
  | plain => exact .nil
  | language outcome => exact Even.nil.snoc _ rfl rfl

end

/-! ## What the gates ask -/

section
variable {c : Collaborators σ ε} {d : Snapshot}
  {request : FormatRequest} {calls : List (Call ε)} {path : String} {settings : Settings}
  {config : LocalConfig} {e : ε}

theorem ignoreFile_even (h : Even calls) :
    Ends (ignoreFile c.watched d path settings) calls fun more _ =>
      Even more ∧ ∃ asked, more = calls ++ asked := by
  unfold ignoreFile
  split
  · refine .bind (P := fun more _ => Even more ∧ ∃ asked, more = calls ++ asked)
      (.noted _ _ fun _ => ⟨h.snoc _ rfl rfl, _, rfl⟩) ?_ fun _ _ hp => hp
    rintro more file? hp
    cases file? with
    | none => exact .pure hp
    | some file => exact log_ends (.pure hp)
  · exact .pure ⟨h, [], (List.append_nil _).symm⟩

/-- The engine is asked about the file, and answers unless it fails. -/
theorem inspect_asks (file? : Option String) :
    Ends (inspect c.watched e d path settings file?) calls fun more r =>
      match r with
      | .ok .virtual => more = calls
      | .ok (.known info) =>
        more = calls ++ [.fileInfo e path (fileInfoOptions settings file?) (.ok info)]
      | _ => ∃ call, more = calls ++ [call] ∧ call.formatted? = none ∧ call.ignored = false := by
  unfold inspect
  split
  · refine .bind (P := fun more r => ∃ outcome,
      more = calls ++ [.fileInfo e path (fileInfoOptions settings file?) outcome] ∧
      r = settled .engine outcome) (.recover_noted _ _ fun r => ⟨r, rfl, rfl⟩) ?_ ?_
    · rintro _ answer ⟨outcome, rfl, hs⟩
      cases answer with
      | ok info =>
        obtain rfl := settled_ok.1 hs.symm
        exact log_ends (.pure rfl)
      | error f =>
        obtain ⟨rfl, -⟩ := settled_ok_error.1 hs.symm
        exact log_ends (.pure ⟨_, rfl, rfl, rfl⟩)
    · rintro _ f ⟨outcome, rfl, hs⟩
      obtain rfl := settled_error hs.symm
      exact ⟨_, rfl, rfl, rfl⟩
  · exact .pure rfl

/-- The parser is determined, unless asking for the languages ends in a fault. -/
theorem parser_determined (hpath : d.path = .ok path) (i : Inspection) :
    Ends (parser? c.watched e d path i) calls fun more r =>
      ∃ determining parser?, Determined d e i.parser? determining parser? ∧
        more = calls ++ determining ∧ (r = .ok parser? ∨ ∃ f, parser? = none ∧ r = .error f) := by
  unfold parser?
  cases i.parser? with
  | some parser => exact .pure ⟨[], some parser, .inferred parser, by simp, .inl rfl⟩
  | none =>
    simp only
    split
    · next hl => exact .pure ⟨[], none, .plain hl, by simp, .inl rfl⟩
    · next hl =>
      -- which request asks is all one to the languages
      refine .bind (languageParser_ends {} hpath) ?_ ?_
      · rintro _ p? ⟨outcome, rfl, hopens, hfound⟩
        refine .pure ⟨_, _, .language outcome hl, rfl, .inl ?_⟩
        cases hparser : p?.bind Json.ifTruthy with
        | some parser =>
          obtain ⟨table, rfl, htable⟩ := hfound p? rfl parser hparser
          exact congrArg Except.ok htable.symm
        | none =>
          cases outcome with
          | error f => rfl
          | ok table =>
            simp only [Call.opens, settled, Except.map, hparser, Option.isSome_none, Except.ok.injEq,
              Option.isSome_eq_false_iff, Option.isNone_iff_eq_none] at hopens
            exact congrArg Except.ok hopens.symm
      · rintro _ f ⟨outcome, rfl, hopens, -⟩
        refine ⟨_, _, .language outcome hl, rfl, .inr ⟨f, ?_, rfl⟩⟩
        cases outcome with
        | error _ => rfl
        | ok table => cases hopens

/-- With the parser determined the document is formatted, without one it is not. -/
theorem parseAndFormat_determined (hpath : d.path = .ok path) (i : Inspection) :
    Ends (parseAndFormat c.watched d.text d path settings config request e i) calls fun more _ =>
      ∃ determining parser? outcome, Determined d e i.parser? determining parser? ∧
        more = calls ++ determining ++
          parser?.toList.map (formatCall d request path settings config e outcome) := by
  unfold parseAndFormat
  refine .bind (parser_determined hpath i) ?_ ?_
  · rintro _ parser? ⟨determining, _, h, rfl, ⟨⟨⟩⟩ | ⟨f, -, ⟨⟩⟩⟩
    cases parser? with
    | none =>
      exact log_ends (.pure ⟨determining, none, .ok d.text, h, (List.append_nil _).symm⟩)
    | some parser =>
      refine (mergedAndFormatted_ends d.text parser).mono ?_
      rintro _ _ ⟨outcome, hmore, -⟩
      exact ⟨determining, some parser, outcome, h, hmore⟩
  · rintro _ f ⟨determining, parser?, h, rfl, ⟨⟨⟩⟩ | ⟨_, rfl, -⟩⟩
    exact ⟨determining, none, .ok d.text, h, (List.append_nil _).symm⟩

/-! ## Two runs -/

/-- Behind the file gate the runs part at the options. -/
theorem parseAndFormat_beside (h : Even calls) (hf : Found d calls path settings config e)
    (i : Inspection) :
    Forks
      (parseAndFormat c.watched d.text d path settings config (request.withForce false) e i)
      (parseAndFormat c.watched d.text d path settings config (request.withForce true) e i) calls
      (Beside d request) := by
  unfold parseAndFormat
  refine .bind (parser_determined hf.located i) ?_ ?_
  · rintro _ parser? ⟨determining, _, hd, rfl, -⟩
    have h := h.append hd.even
    cases parser? with
    | none =>
      exact shut_beside h (log_ends (.pure ⟨rfl, rfl⟩))
    | some parser =>
      refine .part (mergedAndFormatted_ends d.text parser)
        (mergedAndFormatted_ends d.text parser) ?_
      rintro p q ⟨outcome, hp, -⟩ ⟨outcome', hq, -⟩
      exact .formatted h (hf.append _) hp hq
  · rintro _ f s ⟨determining, parser?, hd, rfl, -⟩
    exact .stopped (h.append hd.even) (by simp)

theorem inspectAndFormat_beside (h : Even calls) (hf : Found d calls path settings config e) :
    Forks
      (inspectAndFormat c.watched d.text d path settings config (request.withForce false) e)
      (inspectAndFormat c.watched d.text d path settings config (request.withForce true) e) calls
      (Beside d request) := by
  unfold inspectAndFormat
  refine .bind (ignoreFile_even h) ?_ fun _ f s hp => .stopped hp.1 (by simp)
  rintro _ file? ⟨h, asked, rfl⟩
  have hf := hf.append asked
  refine .bind (inspect_asks file?) ?_ ?_
  · rintro more i hi
    cases i with
    | failed =>
      obtain ⟨call, rfl, hformatted, hignored⟩ := hi
      exact shut_beside (h.snoc _ hformatted hignored) (.pure ⟨rfl, rfl⟩)
    | virtual =>
      cases hi
      simp only [Inspection.ignored, Bool.and_false, Bool.false_eq_true, if_false]
      exact parseAndFormat_beside h hf .virtual
    | known info =>
      cases hi
      simp only [Inspection.ignored, FormatRequest.withForce, Bool.not_false, Bool.true_and,
        Bool.not_true, Bool.false_and, Bool.false_eq_true, if_false]
      cases hignored : info.ignored with
      | false =>
        simp only [Bool.false_eq_true, if_false]
        exact parseAndFormat_beside (h.snoc (.fileInfo _ _ _ (.ok info)) rfl hignored)
          (hf.snoc _) (.known info)
      | true =>
        simp only [if_true]
        refine .part (P := fun more r => more = _ ∧ r = .ok none) (log_ends (.pure ⟨rfl, rfl⟩))
          (parseAndFormat_determined hf.located (.known info)) ?_
        rintro ⟨_, s, _⟩ q ⟨rfl, rfl⟩ ⟨determining, parser?, outcome, hd, hq⟩
        exact .ignored h hf hignored hd hq
  · rintro _ f s ⟨call, rfl, hformatted, hignored⟩
    exact .stopped (h.snoc _ hformatted hignored) (by simp)

theorem withSettings_beside (h : Even calls) (hpath : d.path = .ok path)
    (hfetched : .settings d.uri (.ok (.ok settings)) ∈ calls) :
    Forks (withSettings c.watched d.text d path (request.withForce false) settings)
      (withSettings c.watched d.text d path (request.withForce true) settings) calls
      (Beside d request) := by
  unfold withSettings
  refine .bind (P := fun more r => more = calls ++ [.localConfig d settings r])
    (.noted _ _ fun _ => rfl) ?_ ?_
  · rintro _ config rfl
    have h := h.snoc (.localConfig d settings (.ok config)) rfl rfl
    split
    · exact shut_beside h (log_ends (.pure ⟨rfl, rfl⟩))
    · next hopen =>
      refine .bind (P := fun more r => more = _ ++ [.engine path settings r])
        (.noted _ _ fun _ => rfl) ?_ ?_
      · rintro _ e? rfl
        have h := h.snoc (.engine path settings (.ok e?)) rfl rfl
        cases e? with
        | none =>
          exact shut_beside h (log_ends (.pure ⟨rfl, rfl⟩))
        | some e =>
          exact inspectAndFormat_beside h
            ⟨hpath, by simp [hfetched], by simp, by simpa using hopen, by simp⟩
      · rintro _ f s rfl
        exact .stopped (h.snoc _ rfl rfl) (by simp)
  · rintro _ f s rfl
    exact .stopped (h.snoc _ rfl rfl) (by simp)

theorem format_beside (fetch : String → Act σ (Except Fault Settings)) :
    Forks (format c.watched (fun uri => noted (.settings uri) (fetch uri)) d.text d
        (request.withForce false))
      (format c.watched (fun uri => noted (.settings uri) (fetch uri)) d.text d
        (request.withForce true)) []
      (Beside d request) := by
  unfold format announce
  refine .bind (P := fun more r => more = [] ∧ r = d.path) (log_ends (.ofExcept ⟨rfl, rfl⟩))
    ?_ ?_
  · rintro _ path ⟨rfl, hpath⟩
    refine .bind (P := fun more r => more = [.settings d.uri r]) (.noted _ _ fun _ => rfl) ?_ ?_
    · rintro _ outcome rfl
      have h := Even.nil.snoc (.settings d.uri (.ok outcome) : Call ε) rfl rfl
      unfold complete
      refine .bind (P := fun more r => more = [.settings d.uri (.ok outcome)] ∧
        r = settled .settings outcome) (.recover_ofExcept ⟨rfl, rfl⟩) ?_ ?_
      · rintro _ answer ⟨rfl, hs⟩
        cases answer with
        | ok settings =>
          obtain rfl := settled_ok.1 hs.symm
          exact withSettings_beside h hpath.symm (.head _)
        | error f =>
          exact shut_beside h (log_ends (.pure ⟨rfl, rfl⟩))
      · rintro _ f s ⟨rfl, -⟩
        exact .stopped h (by simp)
    · rintro _ f s rfl
      exact .stopped (Even.nil.snoc _ rfl rfl) (by simp)
  · rintro _ f s ⟨rfl, -⟩
    exact .stopped .nil (by simp)

end

/-! ## The comparison -/

section
variable {d : Snapshot} {request : FormatRequest} {calls : List (Call ε)}

theorem Even.eq_of_mem (h : Even calls) {call last : Call ε} (hmem : call ∈ calls ++ [last])
    (hcall : call.formatted? ≠ none ∨ call.ignored = true) : call = last := by
  obtain hmem | hmem := List.mem_append.1 hmem
  · obtain ⟨hf, hi⟩ := h call hmem
    simp [hf, hi] at hcall
  · exact List.mem_singleton.1 hmem

theorem formats_snoc {path : String} {settings : Settings} {config : LocalConfig} {e : ε}
    {outcome : Except Fault String} (calls : List (Call ε)) (parser : Json) :
    Formats (calls ++ [formatCall d request path settings config e outcome parser]) :=
  ⟨e, d.text, Options.merged path parser settings config request, outcome,
    List.mem_append_right _ (.head _)⟩

theorem formats_append_iff {path : String} {settings : Settings} {config : LocalConfig} {e : ε}
    {outcome : Except Fault String} (h : ∀ call ∈ calls, call.formatted? = none)
    (parser? : Option Json) :
    Formats (calls ++ parser?.toList.map (formatCall d request path settings config e outcome)) ↔
      parser?.isSome = true := by
  constructor
  · rintro ⟨e', text, options, outcome', hmem⟩
    obtain hmem | hmem := List.mem_append.1 hmem
    · cases h _ hmem
    · cases parser? with
      | some parser => rfl
      | none => cases hmem
  · intro hsome
    obtain ⟨parser, rfl⟩ := Option.isSome_iff_exists.1 hsome
    exact formats_snoc calls parser

/-- Barred from formatting, both runs end before they part. -/
theorem Beside.eq_of_barred {p q : Except Fault (Option String) × σ × List (Call ε)}
    (h : Beside d request p q) (horder : q.2.2.Pairwise fun a b => a.place < b.place)
    {settings : Settings} {config : LocalConfig}
    (hmem : .localConfig d settings (.ok config) ∈ q.2.2)
    (hshut : config.allowsFormatting = false) : q = p := by
  have open_of_found : ∀ {before after path settings' config' e},
      Found d before path settings' config' e → q.2.2 = before ++ after → False := by
    intro before after path settings' config' e hf hq
    have hconfigured : .localConfig d settings' (.ok config') ∈ q.2.2 := by
      rw [hq]
      exact List.mem_append_left _ hf.configured
    have heq := eq_of_place horder hmem hconfigured rfl
    simp only [Call.localConfig.injEq, Except.ok.injEq] at heq
    rw [heq.2.2, hf.allowed] at hshut
    cases hshut
  cases h with
  | stopped => rfl
  | ignored _ hf _ _ hq => exact (open_of_found hf (by simpa using hq)).elim
  | formatted _ hf _ hq => exact (open_of_found hf hq).elim

theorem Beside.forces {p q : Except Fault (Option String) × σ × List (Call ε)}
    (h : Beside d request p q) (hgated : Gated d (request.withForce true) q.2.2 q.1) :
    Forces d request p.2.2 q.2.2 (p.1.map (editsFor d), p.2.1) (q.1.map (editsFor d), q.2.1) where
  formats e text options outcome hmem := by
    cases h with
    | stopped heven => exact absurd ⟨e, text, options, outcome, hmem⟩ heven.not_formats
    | ignored heven => cases heven.eq_of_mem hmem (by simp [Call.formatted?])
    | @formatted before path settings config _ parser _ outcome' _ _ heven _ hp hq =>
      rw [hp] at hmem ⊢
      cases heven.eq_of_mem hmem (by simp [Call.formatted?])
      exact ⟨before, _, outcome', rfl, hq,
        Options.merged_withForce path parser settings config request⟩
  ignored e path asked info hmem hinfo := by
    cases h with
    | stopped heven => exact absurd (heven _ hmem).2 (by simp [Call.ignored, hinfo])
    | formatted heven _ hp =>
      rw [hp] at hmem
      cases heven.eq_of_mem hmem (by simp [Call.ignored, hinfo])
    | @ignored before _ settings config _ _ _ determining parser? outcome _ _ heven hf _ hd hq =>
      cases heven.eq_of_mem hmem (by simp [Call.ignored, hinfo])
      refine ⟨⟨before, rfl⟩, rfl, settings, config, determining, parser?, outcome, hf.snoc _, hd, hq,
        ?_⟩
      rw [hq]
      refine formats_append_iff (fun call hc => ?_) parser?
      obtain hc | hc := List.mem_append.1 hc
      · obtain hc | hc := List.mem_append.1 hc
        · exact (heven call hc).1
        · rw [List.mem_singleton.1 hc]
          rfl
      · exact (hd.even call hc).1
  otherwise hformats hignored := by
    cases h with
    | @stopped r _ _ heven hnone =>
      refine ⟨rfl, rfl, fun edits hedits => ?_⟩
      cases r with
      | error f => cases hedits
      | ok text? =>
        cases text? with
        | none => cases hedits; rfl
        | some text => exact absurd rfl (hnone text)
    | ignored _ _ hinfo =>
      have := hignored _ (List.mem_append_right _ (.head _))
      rw [Call.ignored, hinfo] at this
      cases this
    | formatted _ _ hp =>
      rw [hp] at hformats
      exact absurd (formats_snoc _ _) hformats
  barred settings config hmem hshut := by
    obtain ⟨before, after, hsplit⟩ := List.append_of_mem hmem
    have hopens : (Call.localConfig d settings (.ok config) : Call ε).opens d
        (request.withForce true) = .ok false := congrArg Except.ok hshut
    obtain ⟨-, hresult⟩ := hgated.refused before _ after hsplit (by simp [hopens])
    rw [hopens] at hresult
    obtain rfl := h.eq_of_barred hgated.order hmem hshut
    refine ⟨?_, rfl, rfl, by rw [hresult]; rfl⟩
    rintro ⟨e, text, options, outcome, hformat⟩
    have := (hgated.formats e text options outcome hformat).2.2
    rw [hresult] at this
    cases this

end

variable (c : Collaborators σ ε) (fetch : String → Act σ (Except Fault Settings)) (d : Snapshot)
  (request : FormatRequest)

theorem provideEdits_eq (s : σ) :
    let p := format c.watched (fun uri => noted (.settings uri) (fetch uri)) d.text d request (s, [])
    provideEdits c fetch d request s = (p.1.map (editsFor d), p.2.1) := by
  obtain ⟨hstate, hend⟩ :=
    format_alike c.watched_alike (fetch_alike fetch) d.text d request s (s, []) rfl
  intro p
  unfold provideEdits
  rw [hstate, ← hend.eq, bind_apply]
  split
  · next h => rw [h]; rfl
  · next h => rw [h]; rfl

/-- Force passes a file that is ignored and a pragma that is required, and has no other effect. -/
theorem provideEdits_forces (s : σ)
    (hlog : ∀ force, Logged (Pipeline.calls c fetch d (request.withForce force) s)) :
    Forces d request (Pipeline.calls c fetch d (request.withForce false) s)
      (Pipeline.calls c fetch d (request.withForce true) s)
      (provideEdits c fetch d (request.withForce false) s)
      (provideEdits c fetch d (request.withForce true) s) := by
  have hunforced := hlog false
  have hforced := hlog true
  rw [calls_eq] at hunforced hforced
  rw [calls_eq, calls_eq, provideEdits_eq, provideEdits_eq]
  obtain (h | h) | hbeside := format_beside fetch s
  · cases h.not_logged hunforced
  · cases h.not_logged hforced
  obtain h | hgated := format_ends fetch s
  · cases h.not_logged hforced
  · exact hbeside.forces hgated

/-- A file that is ignored, with a parser that the engine names. -/
theorem provideEdits_forces_ignored :
    let c : Collaborators Unit Unit := {
      log := fun _ => pure ()
      localConfig := fun _ _ => pure .missing
      engine := fun _ _ => pure (some ())
      ignoreFile := fun _ _ => pure none
      fileInfo := fun _ _ _ => pure { ignored := true, inferredParser := some (.str "babel") }
      languages := fun _ => pure []
      format := fun _ _ _ => pure "b" }
    let d : Snapshot := { uri := "file:///a.js", text := "a" }
    let fetch := fun _ => pure (.ok {})
    let answer := fun force => provideEdits c fetch d (FormatRequest.withForce {} force) ()
    let calls := fun force => Pipeline.calls c fetch d (FormatRequest.withForce {} force) ()
    (∀ force, Logged (calls force)) ∧
      (answer false).1 = .ok [] ∧ (answer true).1 = .ok [TextEdit.between d "b"] ∧
      Forces d {} (calls false) (calls true) (answer false) (answer true) := by
  intro c d fetch answer calls
  have hlog : ∀ force, Logged (calls force) := by
    unfold Logged
    decide +kernel
  exact ⟨hlog, by decide +kernel, by decide +kernel, provideEdits_forces c fetch d {} () hlog⟩

end Pipeline

end FormatServer
