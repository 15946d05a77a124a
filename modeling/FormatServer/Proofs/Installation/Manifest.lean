import FormatServer.Installation.Lookup

/-!
# What a manifest says of a module

A module is usable with the version that its manifest states (`Usable`), or it is not, in one of
three ways (`Unusable`): the reading of a version ends as the one says or as the other
(`readVersion_ok_iff`, `readVersion_error_iff`).
-/

set_option autoImplicit false

namespace FormatServer.Installation

variable {limits : Limits} {files : Files} {m : String}

/-- The module is an installation with this version: its manifest is an object in UTF-8 JSON with
the formatter's name. -/
def Usable (limits : Limits) (files : Files) (found : Found) : Prop :=
  ∃ text fields, manifestText? files found.modulePath = some text ∧
    Json.Reader.read limits text = .ok (.obj fields) ∧
    Fields.get? fields "name" = some (.str packageName) ∧
    found.version = ((Fields.get? fields "version").getD (.str "")).display

/-- A module is none, and what reading its manifest ends in. -/
inductive Unusable (limits : Limits) (files : Files) (m : String) : Fault → Prop
  /-- There is no text to be read, or it is not JSON. -/
  | unreadable :
      (∀ text, manifestText? files m = some text →
        Json.Reader.read limits text = .error .malformed) →
      Unusable limits files m (.failure (.unreadableManifest m))
  /-- It is the manifest of something else. -/
  | foreign (text : List Char) (v : Json) : manifestText? files m = some text →
      Json.Reader.read limits text = .ok v →
      (∀ fields, v = .obj fields → Fields.get? fields "name" ≠ some (.str packageName)) →
      Unusable limits files m (.failure (.foreignPackage m))
  /-- It nests deeper than is read. -/
  | overdeep (text : List Char) (container : Json.Container) : manifestText? files m = some text →
      Json.Reader.read limits text = .error (.tooDeep container) →
      Unusable limits files m (.nestedTooDeep container)

theorem manifest_ok {modulePath : String} {v : Json} :
    manifest limits files modulePath = .ok v ↔
    ∃ text, manifestText? files modulePath = some text ∧ Json.Reader.read limits text = .ok v := by
  unfold manifest
  cases manifestText? files modulePath with
  | none => simp
  | some text =>
    simp only [Option.elim_some, Option.some.injEq, exists_eq_left']
    split
    · next h => rw [h, Except.ok.injEq, Except.ok.injEq]
    · next h => simp [h]
    · next h => simp [h]

theorem isManifest_iff {v : Json} : isManifest v = true ↔
    ∃ fields, v = .obj fields ∧ Fields.get? fields "name" = some (.str packageName) := by
  cases v with
  | obj fields =>
    simp only [isManifest, Json.get?, Json.obj.injEq, exists_eq_left']
    split
    · next h => simp [h]
    · next h => simpa using h packageName
  | _ => simp [isManifest, Json.get?]

theorem readVersion_ok_iff {version : String} :
    readVersion limits files m = .ok version ↔ Usable limits files ⟨m, version⟩ := by
  have hread : readVersion limits files m = .ok version ↔
      ∃ v, manifest limits files m = .ok v ∧ isManifest v = true ∧
        version = Installation.version v := by
    unfold readVersion
    cases manifest limits files m with
    | error e => simp [bind, Except.bind]
    | ok v =>
      cases h : isManifest v with
      | false => simp [bind, Except.bind, h]
      | true =>
        simp only [bind, Except.bind, pure, Except.pure, h, if_true, Except.ok.injEq,
          exists_eq_left', true_and]
        exact eq_comm
  simp only [hread, manifest_ok, isManifest_iff, Usable]
  constructor
  · rintro ⟨_, ⟨text, htext, hv⟩, ⟨fields, rfl, hname⟩, hversion⟩
    exact ⟨text, fields, htext, hv, hname, hversion⟩
  · rintro ⟨text, fields, htext, hv, hname, hversion⟩
    exact ⟨_, ⟨text, htext, hv⟩, ⟨fields, rfl, hname⟩, hversion⟩

theorem Unusable.of_readVersion {e : Fault} (h : readVersion limits files m = .error e) :
    Unusable limits files m e := by
  unfold readVersion at h
  cases hm : manifest limits files m with
  | ok v =>
    obtain ⟨text, htext, hv⟩ := manifest_ok.1 hm
    rw [hm] at h
    simp only [bind, Except.bind] at h
    split at h
    · cases h
    · next hforeign =>
      cases h
      exact .foreign text v htext hv fun fields hfields hname =>
        hforeign (isManifest_iff.2 ⟨fields, hfields, hname⟩)
  | error e' =>
    rw [hm] at h
    cases h
    unfold manifest at hm
    split at hm
    · cases hm
    · next hmalformed =>
      cases hm
      refine .unreadable fun text htext => ?_
      rw [htext] at hmalformed
      exact hmalformed
    · next container hdeep =>
      cases hm
      cases htext : manifestText? files m with
      | none => rw [htext] at hdeep; cases hdeep
      | some text =>
        rw [htext] at hdeep
        exact .overdeep text container htext hdeep

/-- What a module is not unusable by, it does not end in. -/
theorem readVersion_error_iff {e : Fault} :
    readVersion limits files m = .error e ↔ Unusable limits files m e := by
  refine ⟨.of_readVersion, fun h => ?_⟩
  unfold readVersion manifest
  cases h with
  | unreadable h =>
    cases htext : manifestText? files m with
    | none => rfl
    | some text =>
      rw [Option.elim_some, h text htext]
      rfl
  | foreign text v htext hv hforeign =>
    rw [htext, Option.elim_some, hv]
    have hnot : isManifest v = false := by
      rw [Bool.eq_false_iff]
      intro h
      obtain ⟨fields, hfields, hname⟩ := isManifest_iff.1 h
      exact hforeign fields hfields hname
    simp only [bind, Except.bind, hnot, Bool.false_eq_true, if_false]
  | overdeep text container htext hdeep =>
    rw [htext, Option.elim_some, hdeep]
    rfl

end FormatServer.Installation
