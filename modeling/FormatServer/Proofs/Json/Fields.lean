import FormatServer.Json.Basic
import Mathlib.Data.List.Nodup

/-!
# Fields that are set

What setting and merging fields does to the value of each key (`Fields.get?_set`,
`Fields.get?_merge`) and to the keys (`Fields.keys_set`). Fields without a repeated key
(`Fields.Distinct`) are those that they spell (`Fields.ofPairs_of_distinct`), and setting and merging
repeat none.
-/

set_option autoImplicit false

namespace FormatServer.Fields

/-! ## Values -/

theorem get?_set (fields : Fields) (key : String) (v : Json) (other : String) :
    (fields.set key v).get? other = if other = key then some v else fields.get? other := by
  split
  · rename_i h
    rw [h, get?_set_self]
  · rename_i h
    exact get?_set_of_ne h fields v

theorem merge_cons (fields : Fields) (key : String) (v : Json) (updates : Fields) :
    fields.merge ((key, v) :: updates) = (fields.set key v).merge updates := rfl

/-- The updates win, the last one of a key over the others. -/
theorem get?_merge (key : String) (updates : Fields) : ∀ fields : Fields,
    (fields.merge updates).get? key = ((ofPairs updates).get? key).or (fields.get? key) := by
  induction updates with
  | nil => exact fun _ => rfl
  | cons f updates ih =>
    intro fields
    obtain ⟨k, v⟩ := f
    have hpairs : (ofPairs ((k, v) :: updates)).get? key =
        ((ofPairs updates).get? key).or (if key = k then some v else none) :=
      (ih [(k, v)]).trans (by rw [get?_cons]; rfl)
    rw [merge_cons, ih, hpairs, Option.or_assoc, get?_set]
    split <;> rfl

/-- The values that a function gives to some keys. -/
theorem get?_filterMap (value? : String → Option Json) (key : String) : ∀ keys : List String,
    Fields.get? (keys.filterMap fun k => (value? k).map fun v => (k, v)) key =
      if key ∈ keys then value? key else none
  | [] => rfl
  | k :: keys => by
    have ih := get?_filterMap value? key keys
    rw [List.filterMap_cons]
    by_cases hk : key = k
    · subst hk
      cases hv : value? key with
      | none =>
        rw [hv] at ih
        simpa using ih
      | some v => simp [get?_cons]
    · cases hv : value? k with
      | none => simpa [hk] using ih
      | some v => simpa [get?_cons, hk] using ih

/-! ## Keys -/

/-- The keys in their order. -/
def keys (fields : Fields) : List String := fields.map Prod.fst

theorem keys_cons (key : String) (v : Json) (fields : Fields) :
    keys ((key, v) :: fields) = key :: keys fields := rfl

/-- No key is repeated. -/
def Distinct (fields : Fields) : Prop := fields.keys.Nodup

theorem keys_filterMap_sublist (value? : String → Option Json) : ∀ ks : List String,
    (keys (ks.filterMap fun k => (value? k).map fun v => (k, v))).Sublist ks
  | [] => .slnil
  | k :: ks => by
    have ih := keys_filterMap_sublist value? ks
    rw [List.filterMap_cons]
    cases value? k with
    | none => exact ih.cons k
    | some v => exact ih.cons_cons k

theorem set_of_not_mem {key : String} (v : Json) : ∀ {fields : Fields}, key ∉ fields.keys →
    fields.set key v = fields ++ [(key, v)]
  | [], _ => rfl
  | (k, w) :: fields, h => by
    have hk : ¬ k = key := fun e => h (e ▸ List.mem_cons_self)
    rw [set, if_neg hk, set_of_not_mem v fun hm => h (List.mem_cons_of_mem _ hm)]
    rfl

theorem keys_set (key : String) (v : Json) : ∀ fields : Fields,
    (fields.set key v).keys = if key ∈ fields.keys then fields.keys else fields.keys ++ [key]
  | [] => rfl
  | (k, w) :: fields => by
    have ih := keys_set key v fields
    rw [set, keys_cons]
    by_cases hk : k = key
    · subst hk
      rw [if_pos rfl, if_pos List.mem_cons_self, keys_cons]
    · have hkey : key ∈ k :: keys fields ↔ key ∈ keys fields := by
        rw [List.mem_cons]
        exact or_iff_right fun e => hk e.symm
      rw [if_neg hk, keys_cons, ih, if_congr hkey rfl rfl]
      split <;> rfl

theorem Distinct.set {fields : Fields} (h : fields.Distinct) (key : String) (v : Json) :
    (fields.set key v).Distinct := by
  unfold Distinct
  rw [keys_set]
  split
  · exact h
  · rename_i hkey
    exact List.nodup_append.2 ⟨h, List.nodup_singleton key, fun a ha b hb e =>
      hkey (by rwa [← List.mem_singleton.1 hb, ← e])⟩

theorem Distinct.merge {fields : Fields} (h : fields.Distinct) (updates : Fields) :
    (fields.merge updates).Distinct := by
  induction updates generalizing fields with
  | nil => exact h
  | cons f updates ih => exact ih (h.set f.1 f.2)

/-- Updates with new keys are added behind. -/
theorem merge_of_distinct (updates : Fields) : ∀ {fields : Fields},
    Distinct (fields ++ updates) → fields.merge updates = fields ++ updates := by
  induction updates with
  | nil => exact fun _ => (List.append_nil _).symm
  | cons f updates ih =>
    intro fields h
    obtain ⟨k, v⟩ := f
    have hk : k ∉ fields.keys := by
      intro hmem
      unfold Distinct keys at h
      rw [List.map_append] at h
      exact (List.nodup_append.1 h).2.2 k hmem k List.mem_cons_self rfl
    have happend : fields.set k v ++ updates = fields ++ (k, v) :: updates := by
      rw [set_of_not_mem v hk, List.append_assoc]
      rfl
    rw [merge_cons, ih (happend ▸ h), happend]

theorem ofPairs_of_distinct {fields : Fields} (h : fields.Distinct) : ofPairs fields = fields :=
  merge_of_distinct fields h

end FormatServer.Fields
