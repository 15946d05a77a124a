import FormatServer.Engine.Language
import FormatServer.Proofs.Path.Extension

/-!
# The parser for an editor's language

A language serves an identifier if it lists the identifier and has a parser. Of the languages that
serve it, the parser is that of the first one that lists the extension of the path, or of the first
one of all if none does (`parserFor?_chosen`). So the path never decides whether there is a parser,
and a language that does not serve the identifier makes no difference.
-/

set_option autoImplicit false

namespace FormatServer.Language

variable {languages : List Language} {l : Language} {path : Option String} {languageId : String}

/-- The language lists the identifier and has at least one parser. -/
def Serves (languageId : String) (l : Language) : Prop :=
  Json.str languageId ∈ l.editorIds ∧ l.parsers ≠ []

/-- The language lists the extension that the path ends in. -/
def ListsExtension (path : Option String) (l : Language) : Prop :=
  ∃ p e, path = some p ∧ Spelling.EndsIn p e ∧ Json.str e ∈ l.extensions

/-- The first language of a table with a property. -/
def First (property : Language → Prop) (languages : List Language) (l : Language) : Prop :=
  property l ∧ ∃ before after, languages = before ++ l :: after ∧ ∀ l' ∈ before, ¬ property l'

/-- The language whose parser is taken. -/
inductive Chosen (languages : List Language) (path : Option String) (languageId : String)
    (l : Language) : Prop where
  /-- The first that serves the identifier and lists the extension. -/
  | byExtension (h : First (fun l => l.Serves languageId ∧ l.ListsExtension path) languages l)
  /-- None of those lists the extension, and it is the first that serves the identifier. -/
  | byOrder (h : First (Serves languageId) languages l)
      (none : ∀ l' ∈ languages, l'.Serves languageId → ¬ l'.ListsExtension path)

/-! ## What the tests say -/

theorem names_iff {items : List Json} {s : String} : names items s = true ↔ Json.str s ∈ items := by
  rw [names, List.any_eq_true]
  constructor
  · rintro ⟨item, hmem, hitem⟩
    split at hitem
    · rwa [← of_decide_eq_true hitem]
    · cases hitem
  · exact fun h => ⟨_, h, decide_eq_true rfl⟩

theorem serves_iff : serves languageId l = true ↔ l.Serves languageId := by
  rw [serves, Bool.and_eq_true, names_iff, Bool.not_eq_true', List.isEmpty_eq_false_iff]
  rfl

theorem hasExtension_iff : hasExtension ((path.map Spelling.extension).getD "") l = true ↔
    l.ListsExtension path := by
  rw [hasExtension, Bool.and_eq_true, decide_eq_true_eq, names_iff]
  cases path with
  | none => exact ⟨fun h => absurd rfl h.1, fun ⟨_, _, h, _⟩ => nomatch h⟩
  | some p =>
    rw [Option.map_some, Option.getD_some]
    constructor
    · exact fun h => ⟨p, _, rfl, Spelling.endsIn_extension h.1, h.2⟩
    · rintro ⟨_, e, hp, hends, hlists⟩
      cases hp
      rw [Spelling.extension_of_endsIn hends]
      exact ⟨hends.ne_empty, hlists⟩

/-! ## The first language -/

theorem find?_eq_some {property : Language → Prop} {test : Language → Bool}
    (htest : ∀ l, test l = true ↔ property l) :
    languages.find? test = some l ↔ First property languages l := by
  rw [List.find?_eq_some_iff_append, First, htest]
  simp only [Bool.not_eq_true', ← Bool.not_eq_true, htest]

theorem First.mem {property : Language → Prop} (h : First property languages l) :
    l ∈ languages := by
  obtain ⟨-, before, after, rfl, -⟩ := h
  exact List.mem_append_right _ List.mem_cons_self

/-- The language that the search in the table ends with. -/
def found? (languages : List Language) (path : Option String) (languageId : String) :
    Option Language :=
  ((languages.filter (serves languageId)).find?
    (hasExtension ((path.map Spelling.extension).getD ""))).or
      (languages.filter (serves languageId)).head?

theorem parserFor?_eq (languages : List Language) (path : Option String) (languageId : String) :
    parserFor? languages path languageId =
      (found? languages path languageId).bind (·.parsers.head?) := rfl

theorem found?_eq_some : found? languages path languageId = some l ↔
    Chosen languages path languageId l := by
  have hboth : ∀ l, decide (serves languageId l = true ∧
      hasExtension ((path.map Spelling.extension).getD "") l = true) = true ↔
        l.Serves languageId ∧ l.ListsExtension path := fun l => by
    rw [decide_eq_true_iff, serves_iff, hasExtension_iff]
  rw [found?, List.find?_filter, List.head?_filter, Option.or_eq_some_iff, find?_eq_some hboth,
    find?_eq_some fun _ => serves_iff, List.find?_eq_none]
  simp only [hboth, not_and]
  constructor
  · rintro (h | ⟨hnone, h⟩)
    · exact .byExtension h
    · exact .byOrder h hnone
  · rintro (h | ⟨h, hnone⟩)
    · exact .inl h
    · exact .inr ⟨hnone, h⟩

theorem Chosen.serves (h : Chosen languages path languageId l) :
    l ∈ languages ∧ l.Serves languageId := by
  cases h with
  | byExtension h => exact ⟨h.mem, h.1.1⟩
  | byOrder h => exact ⟨h.mem, h.1⟩

theorem found?_isSome (path : Option String) : (found? languages path languageId).isSome ↔
    ∃ l ∈ languages, l.Serves languageId := by
  constructor
  · intro h
    obtain ⟨l, hl⟩ := Option.isSome_iff_exists.1 h
    exact ⟨l, (found?_eq_some.1 hl).serves⟩
  · rintro ⟨l, hmem, hserves⟩
    have hfilter : languages.filter (serves languageId) ≠ [] :=
      List.ne_nil_of_mem (List.mem_filter.2 ⟨hmem, serves_iff.2 hserves⟩)
    rw [found?, Option.isSome_or, Bool.or_eq_true]
    exact .inr (List.isSome_head?.2 hfilter)

/-- Which parser is found. -/
structure FindsParser (languages : List Language) (path : Option String) (languageId : String) :
    Prop where
  /-- There is one if some language serves the identifier, whatever the path. -/
  isSome : (parserFor? languages path languageId).isSome ↔ ∃ l ∈ languages, l.Serves languageId
  /-- It is the first parser of the language that is chosen. -/
  first : ∀ parser, parserFor? languages path languageId = some parser ↔
    ∃ l, Chosen languages path languageId l ∧ l.parsers.head? = some parser
  /-- The language that is chosen serves the identifier, and there is no other. -/
  chosen : ∀ l, Chosen languages path languageId l → l ∈ languages ∧ l.Serves languageId ∧
    ∀ l', Chosen languages path languageId l' → l' = l
  /-- A language that does not serve the identifier may as well not be in the table. -/
  others : ∀ before l after, languages = before ++ l :: after → ¬ l.Serves languageId →
    parserFor? languages path languageId = parserFor? (before ++ after) path languageId

theorem parserFor?_chosen (languages : List Language) (path : Option String) (languageId : String) :
    FindsParser languages path languageId where
  isSome := by
    rw [← found?_isSome path, parserFor?_eq]
    cases hl : found? languages path languageId with
    | none => rfl
    | some l =>
      have hparsers := (found?_eq_some.1 hl).serves.2.2
      simp [hparsers]
  first parser := by
    rw [parserFor?_eq, Option.bind_eq_some_iff]
    simp only [found?_eq_some]
  chosen l h := by
    refine ⟨h.serves.1, h.serves.2, fun l' h' => ?_⟩
    rw [← found?_eq_some] at h h'
    exact Option.some.inj (h'.symm.trans h)
  others := by
    rintro before l after rfl hserves
    rw [parserFor?, parserFor?, List.filter_append,
      List.filter_cons_of_neg (mt serves_iff.1 hserves), ← List.filter_append]

end FormatServer.Language
