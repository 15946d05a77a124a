import FormatServer.Proofs.Action
import FormatServer.SettingsCache
import Mathlib.Data.List.Basic

/-!
# Settings of an untrusted workspace

Sanitized settings choose nothing (`Settings.Safe`). Of a well formed payload they keep no more than
the formatting options and whether local configuration is required, so two payloads that agree on
these come to settings that are alike (`resolve_alike`).
-/

set_option autoImplicit false

namespace FormatServer

open Act

/-! ## Safe settings -/

/-- The settings have nothing by which a workspace could choose what is loaded or read. -/
def Settings.Safe (settings : Settings) : Prop := settings.sanitized = settings

namespace Settings.Safe

variable {settings : Settings} (h : settings.Safe)
include h

theorem prettierPath : settings.prettierPath = none := by rw [← h]; rfl

theorem configPath : settings.configPath = none := by rw [← h]; rfl

theorem ignorePath : settings.ignorePath = .str defaultIgnorePath := by rw [← h]; rfl

theorem useEditorConfig : settings.useEditorConfig = false := by rw [← h]; rfl

theorem withNodeModules : settings.withNodeModules = false := by rw [← h]; rfl

theorem resolveGlobalModules : settings.resolveGlobalModules = false := by rw [← h]; rfl

end Settings.Safe

namespace SettingsCache

variable {uri : String} {a a' : Except String Json} {settings : Settings}

theorem resolve_untrusted (uri : String) (payload : Json) :
    resolve uri false (.ok payload) = (Settings.ofClient payload).map Settings.sanitized := by
  dsimp only [resolve]
  cases Settings.ofClient payload <;> rfl

theorem resolve_safe (h : resolve uri false a = .ok settings) : settings.Safe := by
  cases a with
  | error reason => cases h
  | ok payload =>
    rw [resolve_untrusted] at h
    cases hs : Settings.ofClient payload <;> rw [hs] at h <;> cases h
    rfl

end SettingsCache

/-! ## Payloads that agree -/

/-- The payload is one that a client should answer. -/
structure Json.IsSettings (payload : Json) : Prop where
  object : payload.truthy = false ∨ payload.kind = .obj
  selectors : ∀ v, payload.get? "documentSelectors" = some v →
    v.truthy = false ∨ v.kind = .arr ∨ v.kind = .str ∨ v.kind = .obj

/-- The value of a key; `null` is none. -/
def Json.given? (payload : Json) (key : String) : Option Json :=
  match payload.get? key with
  | some .null => none
  | v? => v?

/-- The value of a key counts as true. -/
def Json.switched (payload : Json) (key : String) : Bool :=
  ((payload.get? key).map Json.truthy).getD false

/-- Two payloads agree on the formatting options and on whether configuration is required; or they
are the same, whatever they are. -/
inductive Json.AgreeAsSettings : Json → Json → Prop
  | same (payload : Json) : AgreeAsSettings payload payload
  | agree {payload payload' : Json} : payload.IsSettings → payload'.IsSettings →
      (∀ key ∈ formattingKeys, payload.given? key = payload'.given? key) →
      payload.switched "requireConfig" = payload'.switched "requireConfig" →
      AgreeAsSettings payload payload'

/-- Safe settings that make the same of a document. -/
structure Settings.Alike (s t : Settings) : Prop where
  left : s.Safe
  right : t.Safe
  requireConfig : s.requireConfig = t.requireConfig
  formattingOptions : s.formattingOptions = t.formattingOptions

namespace Settings

theorem fieldsOf_isSettings {payload : Json} (h : payload.IsSettings) :
    ∃ fields, fieldsOf payload = .ok fields ∧ ∀ key, fields.get? key = payload.get? key := by
  unfold fieldsOf
  by_cases hp : payload.truthy = true
  · rw [hp]
    have hobj := h.object.resolve_left (by rw [hp]; simp)
    cases payload <;> cases hobj
    exact ⟨_, rfl, fun _ => rfl⟩
  · rw [Bool.not_eq_true] at hp
    rw [hp]
    refine ⟨[], rfl, fun key => ?_⟩
    cases payload with
    | obj fields =>
      cases fields with
      | nil => rfl
      | cons _ _ => cases hp
    | _ => rfl

/-- A well formed payload is read. -/
theorem ofClient_isSettings {payload : Json} (h : payload.IsSettings) :
    ∃ settings, ofClient payload = .ok settings ∧
      settings.requireConfig = payload.switched "requireConfig" ∧
      ∀ key, settings.raw.get? key = payload.get? key := by
  obtain ⟨fields, hfields, hget⟩ := fieldsOf_isSettings h
  have hselectors : ∃ ms, ((fields.get? "documentSelectors").getD .null).members? = some ms := by
    rw [hget]
    cases hv : payload.get? "documentSelectors" with
    | none => exact ⟨[], rfl⟩
    | some v =>
      have hv := h.selectors v hv
      cases v with
      | arr items => exact ⟨_, rfl⟩
      | str s => exact ⟨_, rfl⟩
      | obj fields => exact ⟨_, rfl⟩
      | _ =>
        have ht := hv.resolve_right (by simp [Json.kind])
        exact ⟨[], by simp [Json.members?, ht]⟩
  obtain ⟨ms, hms⟩ := hselectors
  have hsettings : ∃ settings, ofClient payload = .ok settings ∧
      settings.requireConfig = switch fields "requireConfig" false ∧ settings.raw = fields := by
    unfold ofClient
    rw [hfields]
    dsimp only [bind, Except.bind]
    rw [hms]
    exact ⟨_, rfl, rfl, rfl⟩
  obtain ⟨settings, hok, hrequire, hraw⟩ := hsettings
  refine ⟨settings, hok, ?_, fun key => by rw [hraw, hget]⟩
  rw [hrequire, switch, hget]
  rfl

theorem formattingOptions_eq {settings : Settings} {payload : Json}
    (h : ∀ key, settings.raw.get? key = payload.get? key) :
    settings.formattingOptions =
      formattingKeys.filterMap fun key => (payload.given? key).map fun v => (key, v) := by
  unfold formattingOptions
  refine congrArg (formattingKeys.filterMap ·) (funext fun key => ?_)
  rw [h, Json.given?]
  cases payload.get? key with
  | none => rfl
  | some v => cases v <;> rfl

theorem Alike.refl {settings : Settings} (h : settings.Safe) : settings.Alike settings :=
  ⟨h, h, rfl, rfl⟩

end Settings

/-- Two answers agree: they are the same failure, or payloads that agree. -/
inductive SettingsCache.AgreeAsAnswers : Except String Json → Except String Json → Prop
  | error (reason : String) : AgreeAsAnswers (.error reason) (.error reason)
  | ok {payload payload' : Json} : payload.AgreeAsSettings payload' →
      AgreeAsAnswers (.ok payload) (.ok payload')

/-- In an untrusted workspace answers that agree come to settings that are alike. -/
theorem SettingsCache.resolve_alike {a a' : Except String Json} (h : AgreeAsAnswers a a')
    (uri : String) : SameEnd Settings.Alike (resolve uri false a) (resolve uri false a') := by
  cases h with
  | error reason => exact .error _
  | @ok payload payload' h =>
    cases h with
    | same =>
      cases hr : resolve uri false (.ok payload) with
      | error e => exact .error e
      | ok settings => exact .ok (.refl (resolve_safe hr))
    | agree hp hp' hformatting hrequire =>
      obtain ⟨s, hs, hsr, hsraw⟩ := Settings.ofClient_isSettings hp
      obtain ⟨t, ht, htr, htraw⟩ := Settings.ofClient_isSettings hp'
      rw [resolve_untrusted, resolve_untrusted, hs, ht]
      refine .ok ⟨rfl, rfl, ?_, ?_⟩
      · exact hsr.trans (hrequire.trans htr.symm)
      · show s.formattingOptions = t.formattingOptions
        rw [Settings.formattingOptions_eq hsraw, Settings.formattingOptions_eq htraw]
        refine List.filterMap_congr fun key hkey => ?_
        rw [hformatting key hkey]

end FormatServer
