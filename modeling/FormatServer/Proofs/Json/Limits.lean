import FormatServer.Json.Limits
import FormatServer.Proofs.Json.Fields
import Mathlib.Data.List.Basic

/-!
# Values within limits

Every value fits into some limits (`Json.exists_fits`), and what lies in a container that fits, fits
with one container less (`Fits.items`, `Fits.fields`).
-/

set_option autoImplicit false

namespace FormatServer.Json

theorem depth_le_of_mem_items {v : Json} : ∀ {items : List Json}, v ∈ items →
    v.depth ≤ depthItems items
  | w :: ws, h => by
    rw [depthItems]
    obtain rfl | h := List.mem_cons.1 h
    · exact Nat.le_max_left _ _
    · exact Nat.le_trans (depth_le_of_mem_items h) (Nat.le_max_right _ _)

theorem depth_le_of_mem_fields {f : String × Json} : ∀ {fields : Fields}, f ∈ fields →
    f.2.depth ≤ depthFields fields
  | (_, _) :: fs, h => by
    rw [depthFields]
    obtain rfl | h := List.mem_cons.1 h
    · exact Nat.le_max_left _ _
    · exact Nat.le_trans (depth_le_of_mem_fields h) (Nat.le_max_right _ _)

theorem integers_subset_of_mem_items {v : Json} : ∀ {items : List Json}, v ∈ items →
    v.integers ⊆ integersItems items
  | w :: ws, h => by
    rw [integersItems]
    obtain rfl | h := List.mem_cons.1 h
    · exact List.subset_append_left _ _
    · exact fun n hn => List.mem_append_right _ (integers_subset_of_mem_items h hn)

theorem integers_subset_of_mem_fields {f : String × Json} : ∀ {fields : Fields}, f ∈ fields →
    f.2.integers ⊆ integersFields fields
  | (_, _) :: fs, h => by
    rw [integersFields]
    obtain rfl | h := List.mem_cons.1 h
    · exact List.subset_append_left _ _
    · exact fun n hn => List.mem_append_right _ (integers_subset_of_mem_fields h hn)

section Fits

variable {maxDigits room : Nat}

/-- What lies in a list is one less deep. -/
theorem Fits.items {items : List Json} (h : Fits maxDigits room (.arr items)) :
    ∃ inner, room = inner + 1 ∧ ∀ v ∈ items, Fits maxDigits inner v := by
  obtain ⟨hdepth, hdigits⟩ := h
  rw [depth] at hdepth
  rw [integers] at hdigits
  refine ⟨room - 1, by omega, fun v hv => ⟨?_, fun n hn => ?_⟩⟩
  · have := depth_le_of_mem_items hv
    omega
  · exact hdigits n (integers_subset_of_mem_items hv hn)

theorem Fits.fields {fields : Fields} (h : Fits maxDigits room (.obj fields)) :
    ∃ inner, room = inner + 1 ∧ ∀ f ∈ fields, Fits maxDigits inner f.2 := by
  obtain ⟨hdepth, hdigits⟩ := h
  rw [depth] at hdepth
  rw [integers] at hdigits
  refine ⟨room - 1, by omega, fun f hf => ⟨?_, fun n hn => ?_⟩⟩
  · have := depth_le_of_mem_fields hf
    omega
  · exact hdigits n (integers_subset_of_mem_fields hf hn)

/-- Every value fits into some limits. -/
theorem exists_fits (v : Json) : ∃ maxDigits, Fits maxDigits v.depth v := by
  have hbound : ∀ ns : List Int, ∃ bound, ∀ n ∈ ns, digitCount n ≤ bound := by
    intro ns
    induction ns with
    | nil => exact ⟨0, nofun⟩
    | cons n ns ih =>
      obtain ⟨bound, ih⟩ := ih
      refine ⟨max (digitCount n) bound, List.forall_mem_cons.2 ⟨Nat.le_max_left _ _, ?_⟩⟩
      exact fun m hm => Nat.le_trans (ih m hm) (Nat.le_max_right _ _)
  obtain ⟨bound, h⟩ := hbound v.integers
  exact ⟨bound, Nat.le_refl _, h⟩

end Fits

end FormatServer.Json
