import FormatServer.Pipeline
import FormatServer.Proofs.Json.Fields
import FormatServer.Proofs.Settings

/-!
# Precedence of options

Key by key, local configuration wins over the request, and the request over the settings, which count
only where no local configuration was found and only for the formatting options
(`Options.governing`). A forced request then requires no pragma (`Options.forced`). The options that
the pipeline goes on with have each key once and no other values (`Options.merged_precedence`).
-/

set_option autoImplicit false

namespace FormatServer

/-- A bound of the request, if both are there and neither is zero. -/
def FormatRequest.bound? (request : FormatRequest) (bound : Option Int) : Option Json :=
  if request.rangeStart.any (· ≠ 0) ∧ request.rangeEnd.any (· ≠ 0) then bound.map .int else none

namespace Options

section
variable (path : String) (parser : Json) (settings : Settings) (config : LocalConfig)
  (request : FormatRequest) (key : String)

/-- The value that the request gives to a key. -/
def requested : Option Json :=
  if key = "filepath" then some (.str path)
  else if key = "parser" then some parser
  else if key = "rangeStart" then request.bound? request.rangeStart
  else if key = "rangeEnd" then request.bound? request.rangeEnd
  else none

/-- The value that the settings give to a formatting option; `null` is none. -/
def chosen : Option Json :=
  if key ∈ formattingKeys then (Json.obj settings.raw).given? key else none

/-- The value of a key by precedence. Found options are those that their fields spell: the last
value of a key counts. -/
def governing : Option Json :=
  match config with
  | .found options => ((Fields.ofPairs options).get? key).or (requested path parser request key)
  | _ => (requested path parser request key).or (chosen settings key)

/-- What becomes of the value of a key in a forced request: a pragma that is required no longer is. -/
def forced : Option Json → Option Json
  | some (.bool true) =>
    if request.force = true ∧ key = "requirePragma" then some (.bool false) else some (.bool true)
  | v? => v?

end

/-! ## Values of the parts -/

theorem formattingOptions_raw (settings : Settings) : settings.formattingOptions =
    formattingKeys.filterMap fun key =>
      ((Json.obj settings.raw).given? key).map fun v => (key, v) :=
  Settings.formattingOptions_eq fun _ => rfl

theorem get?_formattingOptions (settings : Settings) (key : String) :
    settings.formattingOptions.get? key = chosen settings key := by
  rw [formattingOptions_raw]
  exact Fields.get?_filterMap _ key formattingKeys

theorem get?_bounds (request : FormatRequest) (key : String) :
    (Fields.ofPairs (bounds request)).get? key =
      if key = "rangeStart" then request.bound? request.rangeStart
      else if key = "rangeEnd" then request.bound? request.rangeEnd
      else none := by
  obtain ⟨start?, stop?, force⟩ := request
  unfold bounds FormatRequest.range? FormatRequest.bound?
  cases start? with
  | none => simp [Fields.ofPairs, Fields.merge, Fields.get?]
  | some a =>
    cases stop? with
    | none => simp [Fields.ofPairs, Fields.merge, Fields.get?]
    | some b =>
      simp only [Option.any_some, decide_eq_true_eq]
      by_cases h : a ≠ 0 ∧ b ≠ 0
      · rw [if_pos h, if_pos h, if_pos h]
        dsimp only
        rw [Fields.ofPairs_of_distinct (by simp [Fields.Distinct, Fields.keys]), Fields.get?_cons,
          Fields.get?_cons]
        rfl
      · rw [if_neg h, if_neg h, if_neg h, ite_self, ite_self]
        rfl

theorem get?_dropPragma (request : FormatRequest) (options : Fields) (key : String) :
    (dropPragma request options).get? key = forced request key (options.get? key) := by
  have unforced : ∀ v? : Option Json, ¬ (request.force = true ∧ key = "requirePragma" ∧
      v? = some (.bool true)) → forced request key v? = v? := by
    intro v? h
    unfold forced
    split
    · exact if_neg fun hforce => h ⟨hforce.1, hforce.2, rfl⟩
    · rfl
  unfold dropPragma
  split
  -- The case that is split on is of the merged pragma, the key may be any other.
  · rename_i hpragma
    by_cases hforce : request.force = true
    · rw [if_pos hforce, Fields.get?_set]
      by_cases hkey : key = "requirePragma"
      · subst hkey
        rw [if_pos rfl, hpragma, forced, if_pos ⟨hforce, rfl⟩]
      · rw [if_neg hkey, unforced _ fun h => hkey h.2.1]
    · rw [if_neg hforce, unforced _ fun h => hforce h.1]
  · rename_i hpragma
    rw [unforced]
    rintro ⟨-, rfl, htrue⟩
    exact hpragma htrue

/-- The bounds over the parser over the path: what the request gives, in whatever order it is set. -/
theorem or_requested (path : String) (parser : Json) (request : FormatRequest) (key : String)
    (v? : Option Json) :
    (if key = "rangeStart" then request.bound? request.rangeStart
      else if key = "rangeEnd" then request.bound? request.rangeEnd
      else none).or
        (if key = "parser" then some parser else if key = "filepath" then some (.str path) else v?) =
      (requested path parser request key).or v? := by
  unfold requested
  by_cases hpath : key = "filepath"
  · subst hpath
    rfl
  by_cases hparser : key = "parser"
  · subst hparser
    rfl
  rw [if_neg hpath, if_neg hparser, if_neg hpath, if_neg hparser]

theorem get?_merged (path : String) (parser : Json) (settings : Settings) (config : LocalConfig)
    (request : FormatRequest) (key : String) :
    (merged path parser settings config request).get? key =
      forced request key (governing path parser settings config request key) := by
  unfold merged
  rw [get?_dropPragma, Fields.get?_merge, Fields.get?_merge, Fields.get?_set, Fields.get?_set,
    get?_bounds, or_requested]
  refine congrArg (forced request key) ?_
  unfold governing
  cases config with
  | found options =>
    show ((Fields.ofPairs options).get? key).or ((requested path parser request key).or none) = _
    rw [Option.or_none]
  | _ =>
    show (requested path parser request key).or (settings.formattingOptions.get? key) = _
    rw [get?_formattingOptions]

/-! ## Keys -/

theorem distinct_formattingOptions (settings : Settings) : settings.formattingOptions.Distinct := by
  rw [formattingOptions_raw]
  exact (Fields.keys_filterMap_sublist _ formattingKeys).nodup (by decide)

theorem distinct_base (settings : Settings) (config : LocalConfig) :
    (base settings config).Distinct := by
  cases config with
  | found options => exact List.nodup_nil
  | _ => exact distinct_formattingOptions settings

theorem distinct_dropPragma (request : FormatRequest) {options : Fields} (h : options.Distinct) :
    (dropPragma request options).Distinct := by
  unfold dropPragma
  split
  · split
    · exact h.set _ _
    · exact h
  · exact h

theorem distinct_merged (path : String) (parser : Json) (settings : Settings)
    (config : LocalConfig) (request : FormatRequest) :
    (merged path parser settings config request).Distinct :=
  distinct_dropPragma request (((((distinct_base settings config).set _ _).set _ _).merge _).merge _)

/-! ## Which settings count -/

theorem merged_of_formattingOptions {settings other : Settings}
    (h : settings.formattingOptions = other.formattingOptions) (path : String) (parser : Json)
    (config : LocalConfig) (request : FormatRequest) :
    merged path parser settings config request = merged path parser other config request := by
  have hbase : base settings config = base other config := by
    cases config <;> simp only [base, h]
  simp only [merged, hbase]

theorem formattingOptions_of_chosen {settings other : Settings}
    (h : ∀ key ∈ formattingKeys, chosen settings key = chosen other key) :
    settings.formattingOptions = other.formattingOptions := by
  rw [formattingOptions_raw, formattingOptions_raw]
  refine List.filterMap_congr fun key hkey => ?_
  have hchosen := h key hkey
  unfold chosen at hchosen
  rw [if_pos hkey, if_pos hkey] at hchosen
  rw [hchosen]

theorem raw_of_ofClient {payload : Json} {settings : Settings}
    (h : Settings.ofClient payload = .ok settings) :
    Settings.fieldsOf payload = .ok settings.raw := by
  unfold Settings.ofClient at h
  cases hfields : Settings.fieldsOf payload with
  | error e => rw [hfields] at h; cases h
  | ok fields =>
    rw [hfields] at h
    dsimp only [bind, Except.bind] at h
    cases hms : ((fields.get? "documentSelectors").getD .null).members? with
    | none => rw [hms] at h; cases h
    | some ms => rw [hms] at h; cases h; rfl

/-- What the pipeline goes on with; that it is logged changes nothing. -/
theorem options_ok {σ ε : Type} {c : Collaborators σ ε} (hlog : ∀ r s, (c.log r s).1 = .ok ())
    (path : String) (parser : Json) (settings : Settings) (config : LocalConfig)
    (request : FormatRequest) (s : σ) :
    (Pipeline.options c path parser settings config request s).1 =
      .ok (merged path parser settings config request) := by
  have logged : ∀ r t, c.log r t = (.ok (), (c.log r t).2) := fun r t => Prod.ext (hlog r t) rfl
  unfold Pipeline.options
  cases config <;>
  · dsimp only [Pipeline.info]
    rw [Act.bind_ok (logged _ _), Act.bind_ok (logged _ _)]
    rfl

/-- Of the client's payload only the values of the formatting options count, and none beside found
configuration; each key has its governing value. -/
theorem merged_precedence (path : String) (parser : Json) (config : LocalConfig)
    (request : FormatRequest) :
    (∀ (payload : Json) (settings : Settings), Settings.ofClient payload = .ok settings →
      Settings.fieldsOf payload = .ok settings.raw ∧ settings.sanitized.raw = settings.raw) ∧
    (∀ settings : Settings,
      (merged path parser settings config request).Distinct ∧
        ∀ key, (merged path parser settings config request).get? key =
          forced request key (governing path parser settings config request key)) ∧
    (∀ (options : Fields) (settings : Settings),
      (∀ other, merged path parser settings (.found options) request =
        merged path parser other (.found options) request) ∧
      (options.Distinct → ∀ key v, options.get? key = some v →
        (merged path parser settings (.found options) request).get? key =
          forced request key (some v))) ∧
    (∀ settings other : Settings,
      (∀ key ∈ formattingKeys, chosen settings key = chosen other key) →
      merged path parser settings config request = merged path parser other config request) ∧
    ∀ {σ ε : Type} (c : Collaborators σ ε) (settings : Settings) (s : σ),
      (∀ r t, (c.log r t).1 = .ok ()) →
      (Pipeline.options c path parser settings config request s).1 =
        .ok (merged path parser settings config request) := by
  refine ⟨fun payload settings h => ⟨raw_of_ofClient h, rfl⟩, fun settings => ⟨?_, ?_⟩,
    fun options settings => ⟨fun other => rfl, ?_⟩, fun settings other h => ?_,
    fun c settings s hlog => options_ok hlog path parser settings config request s⟩
  · exact distinct_merged path parser settings config request
  · exact get?_merged path parser settings config request
  · intro hdistinct key v hv
    rw [get?_merged, governing, Fields.ofPairs_of_distinct hdistinct, hv, Option.some_or]
  · exact merged_of_formattingOptions (formattingOptions_of_chosen h) path parser config request

theorem merged_precedence_forced :
    let options : Fields := [("parser", .str "babel"), ("requirePragma", .bool true)]
    let request : FormatRequest := { rangeStart := some 1, rangeEnd := some 4, force := true }
    let merged := merged "/a.ts" (.str "typescript") { raw := [("semi", .bool false)] }
      (.found options) request
    merged.get? "parser" = some (.str "babel") ∧
      merged.get? "requirePragma" = some (.bool false) ∧
      merged.get? "rangeEnd" = some (.int 4) ∧ merged.get? "semi" = none := by
  intro options request merged
  have h := merged_precedence "/a.ts" (.str "typescript") (.found options) request
  have hdistinct : options.Distinct := by
    simp [options, Fields.Distinct, Fields.keys]
  refine ⟨(h.2.2.1 options _).2 hdistinct "parser" _ rfl,
    (h.2.2.1 options _).2 hdistinct "requirePragma" _ rfl, (h.2.1 _).2 "rangeEnd",
    (h.2.1 _).2 "semi"⟩

end Options

end FormatServer
