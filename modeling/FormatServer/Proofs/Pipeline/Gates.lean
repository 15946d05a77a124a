import Mathlib.Data.List.Nodup
import FormatServer.Proofs.Pipeline.Calls

/-!
# The gates of a request

Every call of a collaborator tries a gate, and how it ended says whether the gate is open
(`Call.opens`). `Gated` says that the gates decide a request: each call is the one that is due after
those before it (`Due`), the engine is asked to format exactly where all gates are open (`Passed`), and
a gate that is not open ends the request at once, with no text where it is shut and with the fault
where the outcome is none that the gate knows. An open gate is followed by the next one.
`format_gated` proves it of every request whose records can be made.

Which states the collaborators move through does not matter here, so the proof goes along the
definitions with the calls noted so far alone (`Ends`).
-/

set_option autoImplicit false

namespace FormatServer

open Act

variable {σ ε : Type}

/-- The parser for the language of a document in the engine's table. -/
def Snapshot.parserIn? (d : Snapshot) (table : List Language) : Option Json :=
  (Language.parserFor? table d.path.toOption d.languageId).bind Json.ifTruthy

namespace Call

/-- The place of a call in the order of the gates. -/
def place : Call ε → Nat
  | settings .. => 0
  | localConfig .. => 1
  | engine .. => 2
  | ignoreFile .. => 3
  | fileInfo .. => 4
  | languages .. => 5
  | format .. => 6
  | unlogged .. => 7

/-- A call leaves its gate open or shuts it, unless it ends in a fault that the gate does not
know. -/
def opens (d : Snapshot) (request : FormatRequest) : Call ε → Except Fault Bool
  | settings _ outcome => outcome.bind fun fetched => (settled .settings fetched).map Except.toBool
  | localConfig _ _ outcome => outcome.map LocalConfig.allowsFormatting
  | engine _ _ outcome => outcome.map Option.isSome
  | ignoreFile _ _ outcome => outcome.map fun _ => true
  | fileInfo _ _ _ outcome => (settled .engine outcome).map fun
    | .ok info => request.force || !info.ignored
    | .error _ => false
  | languages _ outcome => (settled .engine outcome).map fun
    | .ok table => (d.parserIn? table).isSome
    | .error _ => false
  | format .. => .ok true
  | unlogged _ fault => .error fault

/-- The call stands for a record that could not be made. -/
def isUnlogged : Call ε → Bool
  | unlogged .. => true
  | _ => false

theorem place_of_formatted {call : Call ε} (h : call.formatted? ≠ none) : call.place = 6 := by
  cases call <;> first | exact absurd rfl h | rfl

end Call

namespace Pipeline

section
variable (d : Snapshot) (request : FormatRequest) (calls : List (Call ε))

/-! ## Open gates -/

/-- The gates up to the engine are open. -/
structure Found (path : String) (settings : Settings) (config : LocalConfig) (e : ε) : Prop where
  located : d.path = .ok path
  fetched : .settings d.uri (.ok (.ok settings)) ∈ calls
  configured : .localConfig d settings (.ok config) ∈ calls
  allowed : config.allowsFormatting = true
  loaded : .engine path settings (.ok (some e)) ∈ calls

/-- The ignore file that the engine is told of: the one that was found, if the settings name one. -/
inductive Named (path : String) (settings : Settings) : Option String → Prop
  | asked (file? : Option String) : settings.ignorePath.truthy = true →
      .ignoreFile path settings.ignorePath (.ok file?) ∈ calls → Named path settings file?
  | unasked : settings.ignorePath.truthy = false → Named path settings none

/-- The file gate is open, and behind it is the parser that the engine named for the file. There
is no such gate for a document that is no file. -/
inductive Inspected (path : String) (settings : Settings) (e : ε) : Option Json → Prop
  | virtual : d.isFile = false → Inspected path settings e none
  | file (file? : Option String) (info : FileInfo) :
      d.isFile = true → Named calls path settings file? →
      .fileInfo e path (fileInfoOptions settings file?) (.ok info) ∈ calls →
      request.force = true ∨ info.ignored = false →
      Inspected path settings e (info.inferredParser.bind Json.ifTruthy)

/-- The parser gate is open: the engine named the parser and is not asked for its languages, or the
parser is the one for the language. -/
inductive Parsed (e : ε) : Option Json → Json → Prop
  | inferred (parser : Json) : (∀ e' outcome, .languages e' outcome ∉ calls) →
      Parsed e (some parser) parser
  | language (table : List Language) (parser : Json) :
      d.languageId ≠ plainText → .languages e (.ok table) ∈ calls →
      d.parserIn? table = some parser → Parsed e none parser

/-- All gates are open. -/
structure Passed (path : String) (settings : Settings) (config : LocalConfig) (e : ε)
    (parser : Json) : Prop extends Found d calls path settings config e where
  parsed : ∃ inferred?, Inspected d request calls path settings e inferred? ∧
    Parsed d calls e inferred? parser

/-- The call that is due after some calls, by what these came to. -/
inductive Due : Call ε → Prop
  | settings (path : String) (outcome : Except Fault (Except Fault Settings)) : calls = [] →
      d.path = .ok path → Due (.settings d.uri outcome)
  | localConfig (settings : Settings) (outcome : Except Fault LocalConfig) :
      .settings d.uri (.ok (.ok settings)) ∈ calls → Due (.localConfig d settings outcome)
  | engine (path : String) (settings : Settings) (config : LocalConfig)
      (outcome : Except Fault (Option ε)) : d.path = .ok path →
      .settings d.uri (.ok (.ok settings)) ∈ calls → .localConfig d settings (.ok config) ∈ calls →
      config.allowsFormatting = true → Due (.engine path settings outcome)
  | ignoreFile (path : String) (settings : Settings) (config : LocalConfig) (e : ε)
      (outcome : Except Fault (Option String)) : Found d calls path settings config e →
      d.isFile = true → settings.ignorePath.truthy = true →
      Due (.ignoreFile path settings.ignorePath outcome)
  | fileInfo (path : String) (settings : Settings) (config : LocalConfig) (e : ε)
      (file? : Option String) (outcome : Except Fault FileInfo) :
      Found d calls path settings config e → d.isFile = true → Named calls path settings file? →
      Due (.fileInfo e path (fileInfoOptions settings file?) outcome)
  | languages (path : String) (settings : Settings) (config : LocalConfig) (e : ε)
      (outcome : Except Fault (List Language)) : Found d calls path settings config e →
      Inspected d request calls path settings e none → d.languageId ≠ plainText →
      Due (.languages e outcome)
  | format (path : String) (settings : Settings) (config : LocalConfig) (e : ε) (parser : Json)
      (outcome : Except Fault String) : Passed d request calls path settings config e parser →
      Due (.format e d.text (Options.merged path parser settings config request) outcome)

/-- The gates decide a request, with the calls that it makes and what it comes to. -/
structure Gated (result : Except Fault (Option String)) : Prop where
  /-- Each call asks what is due after the calls before it. -/
  due : ∀ before call after, calls = before ++ call :: after → Due d request before call
  /-- The gates are tried in order, none of them twice. -/
  order : calls.Pairwise fun a b => a.place < b.place
  once : (calls.filterMap Call.formatted?).length ≤ 1
  /-- The engine formats where all gates are open. -/
  formats_iff : (∃ e text options outcome, .format e text options outcome ∈ calls) ↔
    ∃ path settings config e parser, Passed d request calls path settings config e parser
  /-- It is given the whole text and the merged options, and a text that it refuses stays. -/
  formats : ∀ e text options outcome, .format e text options outcome ∈ calls →
    (∃ path settings config parser, Passed d request calls path settings config e parser ∧
      options = Options.merged path parser settings config request) ∧
    text = d.text ∧ result = .ok (some (outcome.toOption.getD d.text))
  /-- A gate that is not open ends the request, and no call follows. -/
  refused : ∀ before call after, calls = before ++ call :: after →
    call.opens d request ≠ .ok true →
    after = [] ∧ result = (call.opens d request).map fun _ => none
  /-- An open gate is followed by the next one. A request that was refused at none and formats
  nothing has no path, or it has come to the parser of a plain text that no file names. -/
  continues : (∀ call ∈ calls, call.opens d request = .ok true ∧ call.formatted? = none) →
    (∃ f, d.path = .error f ∧ result = .error f) ∨
    ∃ path settings config e, Found d calls path settings config e ∧
      Inspected d request calls path settings e none ∧ d.languageId = plainText ∧ result = .ok none

/-- The gates tried so far are open, each was due, and they come before a place. -/
structure Opened (place : Nat) : Prop where
  due : ∀ before call after, calls = before ++ call :: after → Due d request before call
  order : calls.Pairwise fun a b => a.place < b.place
  opens : ∀ call ∈ calls, call.opens d request = .ok true
  before : ∀ call ∈ calls, call.place < place

end

variable {d : Snapshot} {request : FormatRequest} {calls : List (Call ε)} {path : String}
  {settings : Settings} {config : LocalConfig} {e : ε}

/-! ## Further calls -/

theorem Found.snoc (h : Found d calls path settings config e) (call : Call ε) :
    Found d (calls ++ [call]) path settings config e where
  located := h.located
  fetched := List.mem_append_left _ h.fetched
  configured := List.mem_append_left _ h.configured
  allowed := h.allowed
  loaded := List.mem_append_left _ h.loaded

theorem Named.snoc {file? : Option String} (h : Named calls path settings file?) (call : Call ε) :
    Named (calls ++ [call]) path settings file? := by
  cases h with
  | asked _ hasked hmem => exact .asked file? hasked (List.mem_append_left _ hmem)
  | unasked hunasked => exact .unasked hunasked

theorem Inspected.snoc {inferred? : Option Json}
    (h : Inspected d request calls path settings e inferred?) (call : Call ε) :
    Inspected d request (calls ++ [call]) path settings e inferred? := by
  cases h with
  | virtual hd => exact .virtual hd
  | file file? info hd hnamed hmem hopen =>
    exact .file file? info hd (hnamed.snoc call) (List.mem_append_left _ hmem) hopen

theorem Parsed.snoc {inferred? : Option Json} {parser : Json}
    (h : Parsed d calls e inferred? parser) {call : Call ε} (hcall : call.place = 6) :
    Parsed d (calls ++ [call]) e inferred? parser := by
  cases h with
  | inferred _ hnone =>
    refine .inferred parser fun e' outcome hmem => ?_
    obtain hmem | hmem := List.mem_append.1 hmem
    · exact hnone e' outcome hmem
    · rw [← List.mem_singleton.1 hmem] at hcall
      cases hcall
  | language table _ hl hmem hfound =>
    exact .language table parser hl (List.mem_append_left _ hmem) hfound

theorem Passed.snoc {parser : Json} (h : Passed d request calls path settings config e parser)
    {call : Call ε} (hcall : call.place = 6) :
    Passed d request (calls ++ [call]) path settings config e parser := by
  obtain ⟨inferred?, hi, hp⟩ := h.parsed
  exact ⟨h.toFound.snoc call, inferred?, hi.snoc call, hp.snoc hcall⟩

theorem eq_of_snoc_eq {α : Type} {before after prior : List α} {a b : α}
    (h : prior ++ [b] = before ++ a :: after) :
    (∃ rest, prior = before ++ a :: rest) ∨ after = [] ∧ a = b ∧ before = prior := by
  obtain rfl | ⟨rest, last, rfl⟩ := List.eq_nil_or_concat after
  · exact .inr ⟨rfl, (List.append_inj_right' h rfl |> List.cons.inj).1.symm,
      (List.append_inj_left' h rfl).symm⟩
  · left
    rw [List.concat_eq_append, ← List.cons_append, ← List.append_assoc] at h
    exact ⟨rest, List.append_inj_left' h rfl⟩

theorem due_snoc {last : Call ε}
    (h : ∀ before call after, calls = before ++ call :: after → Due d request before call)
    (hlast : Due d request calls last) (before : List (Call ε)) (call : Call ε)
    (after : List (Call ε)) (hsplit : calls ++ [last] = before ++ call :: after) :
    Due d request before call := by
  obtain ⟨rest, hrest⟩ | ⟨-, rfl, rfl⟩ := eq_of_snoc_eq hsplit
  · exact h before call rest hrest
  · exact hlast

theorem order_snoc (call : Call ε) (h : calls.Pairwise fun a b => a.place < b.place)
    (hlt : ∀ c ∈ calls, c.place < call.place) :
    (calls ++ [call]).Pairwise fun a b => a.place < b.place :=
  List.pairwise_append.2 ⟨h, List.pairwise_singleton _ _, fun c hc x hx => by
    rw [List.mem_singleton.1 hx]
    exact hlt c hc⟩

theorem Opened.nil : Opened d request ([] : List (Call ε)) 0 :=
  ⟨fun _ _ _ h => by simp at h, .nil, fun _ h => (nomatch h), fun _ h => (nomatch h)⟩

theorem Opened.snoc {place : Nat} (h : Opened d request calls place) {call : Call ε}
    (hdue : Due d request calls call) (hplace : place ≤ call.place)
    (hopen : call.opens d request = .ok true) :
    Opened d request (calls ++ [call]) (call.place + 1) where
  due := due_snoc h.due hdue
  order := order_snoc call h.order fun c hc => Nat.lt_of_lt_of_le (h.before c hc) hplace
  opens c hc := by
    obtain hc | hc := List.mem_append.1 hc
    · exact h.opens c hc
    · rw [List.mem_singleton.1 hc]
      exact hopen
  before c hc := by
    obtain hc | hc := List.mem_append.1 hc
    · exact Nat.lt_succ_of_lt (Nat.lt_of_lt_of_le (h.before c hc) hplace)
    · rw [List.mem_singleton.1 hc]
      exact Nat.lt_succ_self _

theorem Opened.mono {m n : Nat} (h : Opened d request calls m) (hmn : m ≤ n) :
    Opened d request calls n :=
  { h with before := fun c hc => Nat.lt_of_lt_of_le (h.before c hc) hmn }

/-! ## Order -/

theorem eq_of_place {a b : Call ε} (h : calls.Pairwise fun a b => a.place < b.place)
    (ha : a ∈ calls) (hb : b ∈ calls) (hab : a.place = b.place) : a = b :=
  List.inj_on_of_nodup_map ((List.pairwise_map.2 h).imp Nat.ne_of_lt) ha hb hab

theorem formatted_length_le (h : calls.Pairwise fun a b => a.place < b.place) :
    (calls.filterMap Call.formatted?).length ≤ 1 := by
  have hnone : (calls.filterMap Call.formatted?).Pairwise fun _ _ => False := by
    refine h.filterMap _ fun a b hlt o ho o' ho' => ?_
    rw [Call.place_of_formatted (by simp [ho] : a.formatted? ≠ none),
      Call.place_of_formatted (by simp [ho'] : b.formatted? ≠ none)] at hlt
    exact Nat.lt_irrefl _ hlt
  match hc : calls.filterMap Call.formatted? with
  | [] => exact Nat.zero_le 1
  | [_] => exact Nat.le_refl 1
  | _ :: _ :: _ =>
    rw [hc] at hnone
    exact (List.rel_of_pairwise_cons hnone List.mem_cons_self).elim

/-- The parser that the engine named is a matter of the calls. -/
theorem Inspected.unique {path' : String} {settings' : Settings} {e' : ε} {a b : Option Json}
    (horder : calls.Pairwise fun a b => a.place < b.place)
    (ha : Inspected d request calls path settings e a)
    (hb : Inspected d request calls path' settings' e' b) : a = b := by
  cases ha with
  | virtual hd =>
    cases hb with
    | virtual => rfl
    | file _ _ hd' => exact absurd hd' (by simp [hd])
  | file file? info hd _ hmem =>
    cases hb with
    | virtual hd' => exact absurd hd (by simp [hd'])
    | file file?' info' _ _ hmem' =>
      have heq := eq_of_place horder hmem hmem' rfl
      simp only [Call.fileInfo.injEq, Except.ok.injEq] at heq
      rw [heq.2.2.2]

/-! ## How a request ends -/

/-- Before the first gate. -/
theorem Gated.lost {f : Fault} (h : d.path = .error f) :
    Gated d request ([] : List (Call ε)) (.error f) where
  due before call after hc := by simp at hc
  order := .nil
  once := Nat.zero_le 1
  formats_iff :=
    ⟨fun ⟨_, _, _, _, h⟩ => (nomatch h), fun ⟨_, _, _, _, _, h⟩ => (nomatch h.fetched)⟩
  formats _ _ _ _ h := nomatch h
  refused before call after hc := by simp at hc
  continues _ := .inl ⟨f, h, rfl⟩

/-- What is asked of a file is asked of files only. -/
theorem Due.isFile {call : Call ε} (h : Due d request calls call)
    (hplace : call.place = 3 ∨ call.place = 4) : d.isFile = true := by
  cases h <;> first | assumption | simp [Call.place] at hplace

theorem Due.place_le {call : Call ε} (h : Due d request calls call) : call.place ≤ 6 := by
  cases h <;> simp [Call.place]

/-- At a gate that is not open. -/
theorem Gated.refuse {place : Nat} (h : Opened d request calls place) {call : Call ε}
    (hdue : Due d request calls call) {v : Except Fault Bool} (hv : call.opens d request = v)
    (hshut : v ≠ .ok true) (hplace : place ≤ call.place) :
    Gated d request (calls ++ [call]) (v.map fun _ => none) := by
  have hrefused : call.opens d request ≠ .ok true := by rwa [hv]
  have horder := order_snoc call h.order fun c hc =>
    Nat.lt_of_lt_of_le (h.before c hc) hplace
  -- an open gate that was tried lies before the one that was refused
  have hbefore : ∀ c ∈ calls ++ [call], c.opens d request = .ok true → c.place < call.place := by
    intro c hc hopen
    obtain hc | hc := List.mem_append.1 hc
    · exact Nat.lt_of_lt_of_le (h.before c hc) hplace
    · rw [List.mem_singleton.1 hc] at hopen
      exact absurd hopen hrefused
  have hle := hdue.place_le
  have hunformatted : ∀ c ∈ calls ++ [call], c.place ≠ 6 := by
    intro c hc h6
    have hopen : c.opens d request = .ok true := by cases c <;> first | rfl | cases h6
    have := hbefore c hc hopen
    omega
  refine ⟨due_snoc h.due hdue, horder, formatted_length_le horder, ⟨?_, ?_⟩, ?_, ?_, ?_⟩
  · rintro ⟨e, text, options, outcome, hmem⟩
    exact absurd rfl (hunformatted _ hmem)
  · rintro ⟨path, settings, config, e, parser, hp⟩
    exfalso
    obtain ⟨inferred?, hi, hq⟩ := hp.parsed
    have hloaded : 2 < call.place := hbefore _ hp.loaded rfl
    have hlanguages : call.place ≠ 5 := by
      intro h5
      cases hq with
      | inferred _ hnone =>
        cases call with
        | languages e' outcome => exact hnone e' outcome (List.mem_append_right _ (.head _))
        | _ => cases h5
      | language table _ _ hmem hfound =>
        have : 5 < call.place := hbefore _ hmem (by simp [Call.opens, settled, hfound, Except.map])
        omega
    have hcall := hunformatted call (by simp)
    cases hi with
    | virtual hd =>
      have := hdue.isFile (by omega)
      rw [hd] at this
      cases this
    | file file? info _ _ hmem hforce =>
      have : 4 < call.place := hbefore _ hmem (by
        simp only [Call.opens, settled, Except.map]
        obtain hf | hi := hforce
        · simp [hf]
        · simp [hi])
      omega
  · intro e text options outcome hmem
    exact absurd rfl (hunformatted _ hmem)
  · intro before c after hc hnot
    obtain ⟨rest, rfl⟩ | ⟨rfl, rfl, -⟩ := eq_of_snoc_eq hc
    · exact absurd (h.opens c (by simp)) hnot
    · exact ⟨rfl, by rw [hv]⟩
  · intro hall
    exact absurd (hall call (by simp)).1 hrefused

/-- Where there is no parser to ask for. -/
theorem Gated.unparsed (h : Opened d request calls 5) (hf : Found d calls path settings config e)
    (hi : Inspected d request calls path settings e none) (hl : d.languageId = plainText) :
    Gated d request calls (.ok none) := by
  have hunformatted : ∀ c ∈ calls, c.formatted? = none := by
    intro c hc
    by_contra hne
    have := h.before c hc
    rw [Call.place_of_formatted hne] at this
    omega
  refine ⟨h.due, h.order, formatted_length_le h.order, ⟨?_, ?_⟩, ?_, ?_, ?_⟩
  · rintro ⟨e, text, options, outcome, hmem⟩
    exact absurd (hunformatted _ hmem) (by simp [Call.formatted?])
  · rintro ⟨path', settings', config', e', parser, hp⟩
    exfalso
    obtain ⟨inferred?, hi', hq⟩ := hp.parsed
    cases Inspected.unique h.order hi hi'
    cases hq with
    | language _ _ hne => exact hne hl
  · intro e text options outcome hmem
    exact absurd (hunformatted _ hmem) (by simp [Call.formatted?])
  · rintro before c after rfl hnot
    exact absurd (h.opens c (by simp)) hnot
  · exact fun _ => .inr ⟨path, settings, config, e, hf, hi, hl, rfl⟩

/-- Behind the last gate. -/
theorem Gated.formatted {parser : Json} (h : Opened d request calls 6)
    (hp : Passed d request calls path settings config e parser) (outcome : Except Fault String) :
    Gated d request
      (calls ++ [.format e d.text (Options.merged path parser settings config request) outcome])
      (.ok (some (outcome.toOption.getD d.text))) := by
  let call := Call.format e d.text (Options.merged path parser settings config request) outcome
  have h' : Opened d request (calls ++ [call]) 7 :=
    h.snoc (.format path settings config e parser outcome hp) (Nat.le_refl 6) rfl
  have hp' : Passed d request (calls ++ [call]) path settings config e parser := hp.snoc rfl
  have hcall : call ∈ calls ++ [call] := List.mem_append_right _ (.head _)
  refine ⟨h'.due, h'.order, formatted_length_le h'.order, ⟨fun _ => ?_, fun _ => ?_⟩, ?_, ?_, ?_⟩
  · exact ⟨path, settings, config, e, parser, hp'⟩
  · exact ⟨e, d.text, _, outcome, hcall⟩
  · intro e' text options outcome' hmem
    have heq := eq_of_place h'.order hmem hcall rfl
    simp only [call, Call.format.injEq] at heq
    obtain ⟨rfl, rfl, rfl, rfl⟩ := heq
    exact ⟨⟨path, settings, config, parser, hp', rfl⟩, rfl, rfl⟩
  · rintro before c after hc hnot
    exact absurd (h'.opens c (by rw [hc]; simp)) hnot
  · intro hall
    exact absurd (hall call hcall).2 (by simp [call, Call.formatted?])

end Pipeline

/-! ## The notes of an action -/

/-- Every record could be made. -/
def Logged (calls : List (Call ε)) : Prop := ∀ call ∈ calls, call.isUnlogged = false

/-- An action has ended as a record could not be made. -/
def Interrupted {α : Type} (p : Except Fault α × σ × List (Call ε)) : Prop :=
  ∃ entry fault, .unlogged entry fault ∈ p.2.2 ∧ p.1 = .error fault

/-- From any state, with these notes before it, the action ends with notes and an outcome in `Q`
unless it is interrupted. -/
def Act.Ends {α : Type} (x : Act (σ × List (Call ε)) α) (notes : List (Call ε))
    (Q : List (Call ε) → Except Fault α → Prop) : Prop :=
  ∀ s, Interrupted (x (s, notes)) ∨ Q (x (s, notes)).2.2 (x (s, notes)).1

theorem Interrupted.not_logged {α : Type} {p : Except Fault α × σ × List (Call ε)}
    (h : Interrupted p) : ¬ Logged p.2.2 := by
  obtain ⟨entry, fault, hmem, -⟩ := h
  intro hlogged
  cases hlogged _ hmem

theorem Interrupted.bind {α β : Type} {x : Act (σ × List (Call ε)) α}
    {p : σ × List (Call ε)} (h : Interrupted (x p)) (f : α → Act (σ × List (Call ε)) β) :
    Interrupted ((x >>= f) p) := by
  obtain ⟨entry, fault, hmem, hfault⟩ := h
  rw [bind_error (Prod.ext hfault rfl : x p = (.error fault, (x p).2))]
  exact ⟨entry, fault, hmem, rfl⟩

namespace Act.Ends

variable {α β : Type} {notes : List (Call ε)} {P : List (Call ε) → Except Fault α → Prop}
  {Q : List (Call ε) → Except Fault β → Prop}

theorem pure {a : α} (h : P notes (.ok a)) : Ends (Pure.pure a : Act (σ × List (Call ε)) α) notes P :=
  fun _ => .inr h

theorem ofExcept {r : Except Fault α} (h : P notes r) :
    Ends (ofExcept r : Act (σ × List (Call ε)) α) notes P :=
  fun _ => .inr h

theorem noted (note : Except Fault α → Call ε) (x : Act σ α) (h : ∀ r, P (notes ++ [note r]) r) :
    Ends (noted note x) notes P :=
  fun _ => .inr (h _)

theorem mono {x : Act (σ × List (Call ε)) α} {P' : List (Call ε) → Except Fault α → Prop}
    (hx : Ends x notes P) (h : ∀ more r, P more r → P' more r) : Ends x notes P' :=
  fun s => (hx s).imp_right (h _ _)

theorem bind {x : Act (σ × List (Call ε)) α} {f : α → Act (σ × List (Call ε)) β}
    (hx : Ends x notes P) (ok : ∀ more a, P more (.ok a) → Ends (f a) more Q)
    (error : ∀ more e, P more (.error e) → Q more (.error e)) : Ends (x >>= f) notes Q := by
  intro s
  obtain h | h := hx s
  · exact .inl (h.bind f)
  · rw [bind_apply]
    revert h
    rcases x (s, notes) with ⟨r, t, more⟩
    intro h
    cases r with
    | ok a => exact ok more a h t
    | error e => exact .inr (error more e h)

/-- A call of which the way it ends is returned. -/
theorem attempt_noted {Q : List (Call ε) → Except Fault (Except Fault α) → Prop}
    (note : Except Fault α → Call ε) (x : Act σ α) (h : ∀ r, Q (notes ++ [note r]) (.ok r)) :
    Ends (attempt (Act.noted note x)) notes Q :=
  fun _ => .inr (h _)

/-- A call of which the failures of one stage are returned. -/
theorem recover_noted {stage : Stage} {Q : List (Call ε) → Except Fault (Except Failure α) → Prop}
    (note : Except Fault α → Call ε) (x : Act σ α)
    (h : ∀ r, Q (notes ++ [note r]) (settled stage r)) :
    Ends (recover stage (Act.noted note x)) notes Q := by
  intro s
  rw [recover_apply]
  exact .inr (h _)

theorem recover_ofExcept {stage : Stage} {r : Except Fault α}
    {Q : List (Call ε) → Except Fault (Except Failure α) → Prop} (h : Q notes (settled stage r)) :
    Ends (recover stage (Act.ofExcept r) : Act (σ × List (Call ε)) _) notes Q := by
  intro s
  rw [recover_apply]
  exact .inr h

end Act.Ends

namespace Pipeline

section
variable {c : Collaborators σ ε} {d : Snapshot} {request : FormatRequest} {calls : List (Call ε)}
  {path : String} {settings : Settings} {config : LocalConfig} {e : ε}

theorem log_ends {α : Type} {x : Act (σ × List (Call ε)) α} {entry : LogEntry}
    {Q : List (Call ε) → Except Fault α → Prop} (h : Ends x calls Q) :
    Ends (do c.watched.log entry; x) calls Q := by
  refine .bind (P := fun more r => more = calls ∧ r = .ok ()) (fun s => ?_) ?_ ?_
  · obtain ⟨_, hr, hnotes⟩ | ⟨fault, hr, hnotes⟩ :=
      faultNoted_cases (.unlogged entry) (c.log entry) (s, calls)
    · exact .inr ⟨hnotes, hr⟩
    · refine .inl ⟨entry, fault, ?_, hr⟩
      exact hnotes.symm ▸ List.mem_append_right _ (.head _)
  · rintro more u ⟨rfl, -⟩
    exact h
  · rintro more e ⟨-, h⟩
    cases h

/-! ## Behind the gates -/

theorem options_ends (parser : Json) :
    Ends (options c.watched path parser settings config request) calls fun more r =>
      more = calls ∧ r = .ok (Options.merged path parser settings config request) := by
  unfold options
  cases config <;> exact log_ends (log_ends (.pure ⟨rfl, rfl⟩))

theorem formatted_ends (text : String) (merged : Fields) :
    Ends (formatted c.watched e text merged) calls fun more r =>
      ∃ outcome, more = calls ++ [.format e text merged outcome] ∧
        r = .ok (outcome.toOption.getD text) := by
  unfold formatted
  refine .bind (P := fun more r => ∃ outcome, more = calls ++ [.format e text merged outcome] ∧
      r = .ok outcome) (.attempt_noted _ _ fun r => ⟨r, rfl, rfl⟩) ?_ ?_
  · rintro more outcome ⟨_, rfl, h⟩
    cases h
    cases outcome with
    | ok result => exact .pure ⟨.ok result, rfl, rfl⟩
    | error fault => exact log_ends (.pure ⟨.error fault, rfl, rfl⟩)
  · rintro more f ⟨_, -, h⟩
    cases h

/-- With a parser the engine is asked to format, whatever comes of it. -/
theorem mergedAndFormatted_ends (text : String) (parser : Json) :
    Ends (do
        let merged ← options c.watched path parser settings config request
        return some (← formatted c.watched e text merged)) calls fun more r =>
      ∃ outcome, more = calls ++
          [.format e text (Options.merged path parser settings config request) outcome] ∧
        r = .ok (some (outcome.toOption.getD text)) := by
  refine .bind (options_ends parser) ?_ ?_
  · rintro _ merged ⟨rfl, hmerged⟩
    cases hmerged
    refine .bind (formatted_ends text _) ?_ ?_
    · rintro _ formatted ⟨outcome, rfl, h⟩
      cases h
      exact .pure ⟨outcome, rfl, rfl⟩
    · rintro _ f ⟨_, -, h⟩
      cases h
  · rintro _ f ⟨-, hmerged⟩
    cases hmerged

/-! ## The gates, from the last one on -/

/-- Asking for the languages is a gate, open where they have a parser for the document. -/
theorem languageParser_ends (request : FormatRequest) (hpath : d.path = .ok path) :
    Ends (languageParser c.watched e d path) calls fun more r => ∃ outcome,
      more = calls ++ [.languages e outcome] ∧
      (Call.languages e outcome).opens d request = r.map (fun p? => (p?.bind Json.ifTruthy).isSome) ∧
      ∀ p?, r = .ok p? → ∀ parser, p?.bind Json.ifTruthy = some parser →
        ∃ table, outcome = .ok table ∧ d.parserIn? table = some parser := by
  have hfound : ∀ table, d.parserIn? table =
      (Language.parserFor? table (some path) d.languageId).bind Json.ifTruthy := fun table => by
    rw [Snapshot.parserIn?, hpath]
    rfl
  unfold languageParser
  refine log_ends (.bind (P := fun more r => ∃ outcome,
    more = calls ++ [.languages e outcome] ∧ r = settled .engine outcome)
    (.recover_noted _ _ fun r => ⟨r, rfl, rfl⟩) ?_ ?_)
  · rintro more answer ⟨outcome, rfl, h⟩
    cases answer with
    | ok table =>
      obtain rfl := settled_ok.1 h.symm
      refine .pure ⟨_, rfl, ?_, ?_⟩
      · simp only [Call.opens, settled, Except.map, hfound]
      · rintro p? hp parser hparser
        cases hp
        exact ⟨table, rfl, (hfound table).trans hparser⟩
    | error f =>
      refine log_ends (.pure ⟨outcome, rfl, ?_, ?_⟩)
      · simp only [Call.opens, ← h, Except.map, Option.bind_none, Option.isSome_none]
      · rintro p? hp parser hparser
        cases hp
        cases hparser
  · rintro more f ⟨outcome, rfl, h⟩
    exact ⟨outcome, rfl, by simp only [Call.opens, ← h, Except.map], fun _ hp => by cases hp⟩

/-- The parser gate has been passed, or the request has ended at it. -/
theorem parser_ends {i : Inspection} (h : Opened d request calls 5)
    (hf : Found d calls path settings config e)
    (hi : Inspected d request calls path settings e i.parser?) :
    Ends (parser? c.watched e d path i) calls fun
      | more, .ok (some parser) => Opened d request more 6 ∧
          Passed d request more path settings config e parser
      | more, .ok none => Gated d request more (.ok none)
      | more, .error f => Gated d request more (.error f) := by
  unfold parser?
  cases hp : i.parser? with
  | some parser =>
    refine .pure ⟨h.mono (Nat.le_succ 5), hf, some parser, hp ▸ hi, .inferred parser ?_⟩
    exact fun e' outcome hmem => Nat.lt_irrefl 5 (h.before _ hmem)
  | none =>
    rw [hp] at hi
    simp only
    split
    · next hl => exact .pure (.unparsed h hf hi hl)
    · next hl =>
      have hdue : ∀ outcome, Due d request calls (.languages e outcome) :=
        fun outcome => .languages path settings config e outcome hf hi hl
      refine .bind (languageParser_ends request hf.located) ?_ ?_
      · rintro more p? ⟨outcome, rfl, hopens, hfound⟩
        refine .pure ?_
        simp only [Except.map] at hopens
        cases hparser : p?.bind Json.ifTruthy with
        | none =>
          rw [hparser] at hopens
          exact .refuse h (hdue outcome) hopens (by simp) (Nat.le_refl 5)
        | some parser =>
          rw [hparser] at hopens
          obtain ⟨table, rfl, htable⟩ := hfound p? rfl parser hparser
          refine ⟨h.snoc (hdue _) (Nat.le_refl 5) hopens, hf.snoc _, none, hi.snoc _, ?_⟩
          exact .language table parser hl (by simp) htable
      · rintro more f ⟨outcome, rfl, hopens, -⟩
        exact .refuse h (hdue outcome) hopens (by simp [Except.map]) (Nat.le_refl 5)

theorem parseAndFormat_ends {i : Inspection} (h : Opened d request calls 5)
    (hf : Found d calls path settings config e)
    (hi : Inspected d request calls path settings e i.parser?) :
    Ends (parseAndFormat c.watched d.text d path settings config request e i) calls
      (Gated d request) := by
  unfold parseAndFormat
  refine .bind (parser_ends h hf hi) (fun more parser? hp => ?_) fun more f hp => hp
  cases parser? with
  | none => exact log_ends (.pure hp)
  | some parser =>
    refine (mergedAndFormatted_ends d.text parser).mono ?_
    rintro _ _ ⟨outcome, rfl, rfl⟩
    exact .formatted hp.1 hp.2 outcome

/-- The ignore file is looked for, or it is not asked for. -/
theorem ignoreFile_ends (h : Opened d request calls 3)
    (hf : Found d calls path settings config e) :
    Ends (ignoreFile c.watched d path settings) calls fun
      | more, .ok file? => Opened d request more 4 ∧ Found d more path settings config e ∧
          (d.isFile = true → Named more path settings file?)
      | more, .error f => Gated d request more (.error f) := by
  unfold ignoreFile
  split
  · next hask =>
    simp only [Bool.and_eq_true] at hask
    have hdue : ∀ outcome, Due d request calls (.ignoreFile path settings.ignorePath outcome) :=
      fun outcome => .ignoreFile path settings config e outcome hf hask.2 hask.1
    refine .bind (P := fun more r => more = calls ++ [.ignoreFile path settings.ignorePath r])
      (.noted _ _ fun r => rfl) ?_ ?_
    · rintro _ file? rfl
      have hopened := h.snoc (hdue (.ok file?)) (Nat.le_refl 3) rfl
      have hnamed : Named (calls ++ [.ignoreFile path settings.ignorePath (.ok file?)]) path
          settings file? := .asked file? hask.1 (by simp)
      cases file? with
      | none => exact .pure ⟨hopened, hf.snoc _, fun _ => hnamed⟩
      | some file => exact log_ends (.pure ⟨hopened, hf.snoc _, fun _ => hnamed⟩)
    · rintro _ f rfl
      exact .refuse h (hdue _) (v := .error f) rfl (by simp) (Nat.le_refl 3)
  · next hask =>
    refine .pure ⟨h.mono (Nat.le_succ 3), hf, fun hd => .unasked ?_⟩
    simpa [hd] using hask

theorem inspect_ends (h : Opened d request calls 4) (hf : Found d calls path settings config e)
    {file? : Option String} (hnamed : d.isFile = true → Named calls path settings file?) :
    Ends (inspect c.watched e d path settings file?) calls fun
      | more, .ok .virtual => d.isFile = false ∧ more = calls
      | more, .ok (.known info) => d.isFile = true ∧
          more = calls ++ [.fileInfo e path (fileInfoOptions settings file?) (.ok info)]
      | more, .ok .failed => Gated d request more (.ok none)
      | more, .error f => Gated d request more (.error f) := by
  unfold inspect
  split
  · next hd =>
    have hdue : ∀ outcome, Due d request calls
        (.fileInfo e path (fileInfoOptions settings file?) outcome) :=
      fun outcome => .fileInfo path settings config e file? outcome hf hd (hnamed hd)
    refine .bind (P := fun more r => ∃ outcome,
      more = calls ++ [.fileInfo e path (fileInfoOptions settings file?) outcome] ∧
      r = settled .engine outcome) (.recover_noted _ _ fun r => ⟨r, rfl, rfl⟩) ?_ ?_
    · rintro _ answer ⟨outcome, rfl, hs⟩
      cases answer with
      | ok info =>
        obtain rfl := settled_ok.1 hs.symm
        exact log_ends (.pure ⟨hd, rfl⟩)
      | error f =>
        exact log_ends (.pure (.refuse h (hdue outcome) (v := .ok false)
          (by simp [Call.opens, ← hs, Except.map]) (by simp) (Nat.le_refl 4)))
    · rintro _ f ⟨outcome, rfl, hs⟩
      exact .refuse h (hdue outcome) (v := .error f) (by simp [Call.opens, ← hs, Except.map])
        (by simp) (Nat.le_refl 4)
  · next hd => exact .pure ⟨by simpa using hd, rfl⟩

theorem inspectAndFormat_ends (h : Opened d request calls 3)
    (hf : Found d calls path settings config e) :
    Ends (inspectAndFormat c.watched d.text d path settings config request e) calls
      (Gated d request) := by
  unfold inspectAndFormat
  refine .bind (ignoreFile_ends h hf) (fun more file? hp => ?_) fun _ _ hp => hp
  obtain ⟨h, hf, hnamed⟩ := hp
  refine .bind (inspect_ends h hf hnamed) (fun more i hi => ?_) fun _ _ hi => hi
  cases i with
  | failed => exact .pure hi
  | virtual =>
    obtain ⟨hd, rfl⟩ := hi
    simp only [Inspection.ignored, Bool.and_false, Bool.false_eq_true, if_false]
    exact parseAndFormat_ends (h.mono (Nat.le_succ 4)) hf (.virtual hd)
  | known info =>
    obtain ⟨hd, rfl⟩ := hi
    have hdue : Due d request more
        (.fileInfo e path (fileInfoOptions settings file?) (.ok info)) :=
      .fileInfo path settings config e file? _ hf hd (hnamed hd)
    have hopens : (Call.fileInfo e path (fileInfoOptions settings file?) (.ok info)).opens d request
      = .ok (request.force || !info.ignored) := rfl
    simp only [Inspection.ignored]
    by_cases hopen : request.force = true ∨ info.ignored = false
    · have hif : (!request.force && info.ignored) = false := by
        obtain hforce | hi := hopen
        · simp [hforce]
        · simp [hi]
      simp only [hif, Bool.false_eq_true, if_false]
      refine parseAndFormat_ends (h.snoc hdue (Nat.le_refl 4) ?_) (hf.snoc _)
        (.file file? info hd ((hnamed hd).snoc _) (by simp) hopen)
      rw [hopens]
      obtain hforce | hi := hopen
      · simp [hforce]
      · simp [hi]
    · simp only [not_or, Bool.not_eq_true, Bool.not_eq_false] at hopen
      rw [hopen.1, hopen.2] at hopens
      simp only [hopen.1, hopen.2, Bool.not_false, Bool.and_self, if_true]
      exact log_ends (.pure (.refuse h hdue hopens (by simp) (Nat.le_refl 4)))

/-- The gates behind the settings. -/
theorem withSettings_ends (h : Opened d request calls 1) (hpath : d.path = .ok path)
    (hfetched : .settings d.uri (.ok (.ok settings)) ∈ calls) :
    Ends (withSettings c.watched d.text d path request settings) calls (Gated d request) := by
  unfold withSettings
  have hdue : ∀ outcome, Due d request calls (.localConfig d settings outcome) :=
    fun outcome => .localConfig settings outcome hfetched
  refine .bind (P := fun more r => more = calls ++ [.localConfig d settings r])
    (.noted _ _ fun _ => rfl) ?_ ?_
  · rintro _ config rfl
    split
    · next hshut =>
      have hshut : config.allowsFormatting = false := by simpa using hshut
      exact log_ends (.pure (.refuse h (hdue _) (v := .ok false)
        (by simp [Call.opens, Except.map, hshut]) (by simp) (Nat.le_refl 1)))
    · next hopen =>
      have hallowed : config.allowsFormatting = true := by simpa using hopen
      have h := h.snoc (hdue (.ok config)) (Nat.le_refl 1) (congrArg Except.ok hallowed)
      have hdue : ∀ outcome, Due d request (calls ++ [.localConfig d settings (.ok config)])
          (.engine path settings outcome) := fun outcome =>
        .engine path settings config outcome hpath (by simp [hfetched]) (by simp) hallowed
      refine .bind (P := fun more r => more = calls ++ [.localConfig d settings (.ok config)] ++
        [.engine path settings r]) (.noted _ _ fun _ => rfl) ?_ ?_
      · rintro _ e? rfl
        cases e? with
        | none => exact log_ends (.pure (.refuse h (hdue _) (v := .ok false) rfl (by simp)
            (Nat.le_refl 2)))
        | some e =>
          exact inspectAndFormat_ends (h.snoc (hdue _) (Nat.le_refl 2) rfl)
            ⟨hpath, by simp [hfetched], by simp, hallowed, by simp⟩
      · rintro _ f rfl
        exact .refuse h (hdue _) (v := .error f) rfl (by simp) (Nat.le_refl 2)
  · rintro _ f rfl
    exact .refuse h (hdue _) (v := .error f) rfl (by simp) (Nat.le_refl 1)

/-! ## The request -/

theorem calls_eq (fetch : String → Act σ (Except Fault Settings)) (s : σ) :
    Pipeline.calls c fetch d request s =
      (format c.watched (fun uri => noted (.settings uri) (fetch uri)) d.text d request
        (s, [])).2.2 := by
  unfold Pipeline.calls watch provideEdits
  rw [bind_apply]
  split
  · next h => rw [h]; rfl
  · next h => rw [h]

theorem format_ends (fetch : String → Act σ (Except Fault Settings)) :
    Ends (format c.watched (fun uri => noted (.settings uri) (fetch uri)) d.text d request) []
      (Gated d request) := by
  unfold format announce
  refine .bind (P := fun more r => more = [] ∧ r = d.path) (log_ends (.ofExcept ⟨rfl, rfl⟩))
    ?_ ?_
  · rintro _ path ⟨rfl, hpath⟩
    have hdue : ∀ outcome, Due d request ([] : List (Call ε)) (.settings d.uri outcome) :=
      fun outcome => .settings path outcome rfl hpath.symm
    refine .bind (P := fun more r => more = [.settings d.uri r]) (.noted _ _ fun _ => rfl) ?_ ?_
    · rintro _ outcome rfl
      refine .bind (P := fun more r => more = [.settings d.uri (.ok outcome)] ∧
        r = settled .settings outcome) (.recover_ofExcept ⟨rfl, rfl⟩) ?_ ?_
      · rintro _ answer ⟨rfl, hs⟩
        cases answer with
        | ok settings =>
          obtain rfl := settled_ok.1 hs.symm
          exact withSettings_ends (Opened.nil.snoc (hdue _) (Nat.le_refl 0) rfl) hpath.symm (.head _)
        | error f =>
          exact log_ends (.pure (.refuse .nil (hdue _) (v := .ok false)
            (by simp [Call.opens, Except.bind, ← hs, Except.map, Except.toBool]) (by simp)
            (Nat.le_refl 0)))
      · rintro _ f ⟨rfl, hs⟩
        exact .refuse .nil (hdue _) (v := .error f)
          (by simp [Call.opens, Except.bind, ← hs, Except.map]) (by simp) (Nat.le_refl 0)
    · rintro _ f rfl
      exact .refuse .nil (hdue _) (v := .error f) rfl (by simp) (Nat.le_refl 0)
  · rintro _ f ⟨rfl, hpath⟩
    exact .lost hpath.symm

/-- The gates decide every request whose records can be made, whatever the collaborators do. -/
theorem format_gated (fetch : String → Act σ (Except Fault Settings)) (s : σ)
    (hlog : Logged (Pipeline.calls c fetch d request s)) :
    Gated d request (Pipeline.calls c fetch d request s) (format c fetch d.text d request s).1 := by
  have hsame :=
    (format_alike c.watched_alike (fetch_alike fetch) d.text d request s (s, []) rfl).2.eq
  rw [calls_eq] at hlog ⊢
  rw [hsame]
  exact (format_ends fetch s).resolve_left fun h => h.not_logged hlog

end

theorem format_gated_passing :
    let c : Collaborators Unit Unit := {
      log := fun _ => pure ()
      localConfig := fun _ _ => pure .missing
      engine := fun _ _ => pure (some ())
      ignoreFile := fun _ _ => pure none
      fileInfo := fun _ _ _ => pure { inferredParser := some (.str "babel") }
      languages := fun _ => pure []
      format := fun _ _ _ => pure "b" }
    let d : Snapshot := { uri := "file:///a.js", text := "a" }
    let fetch := fun _ => pure (.ok {})
    let result := (format c fetch d.text d {} ()).1
    Logged (Pipeline.calls c fetch d {} ()) ∧ result = .ok (some "b") ∧
      Gated d {} (Pipeline.calls c fetch d {} ()) result := by
  intro c d fetch result
  have hlog : Logged (Pipeline.calls c fetch d {} ()) := by
    unfold Logged
    decide +kernel
  exact ⟨hlog, by decide +kernel, format_gated fetch () hlog⟩

end Pipeline

end FormatServer
