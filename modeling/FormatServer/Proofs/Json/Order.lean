import FormatServer.Json.Canonical
import FormatServer.Proofs.Json.Fields
import Mathlib.Data.List.Forall2

/-!
# Values up to the order of keys

Two values are the same (`Json.Same`) if they differ at most in the order in which objects list
their keys. Sorting the keys of every object (`Json.ordered`) picks one value of each kind: plain
values are the same exactly if they are equal once ordered (`Json.ordered_eq_iff`). That rests on
the sorting of entries with distinct keys, whose outcome does not depend on the order they come in
(`Canonical.sortByKey_eq_of_perm`).
-/

set_option autoImplicit false

namespace FormatServer.Json

/-! ## Sorted entries -/

namespace Canonical

variable {α β : Type}

theorem sortByKey_perm (entries : List (String × α)) : (sortByKey entries).Perm entries :=
  List.mergeSort_perm entries _

theorem mem_sortByKey {e : String × α} {entries : List (String × α)} :
    e ∈ sortByKey entries ↔ e ∈ entries :=
  List.mem_mergeSort

theorem sortByKey_sorted (entries : List (String × α)) :
    (sortByKey entries).Pairwise fun a b => decide (a.1 ≤ b.1) = true :=
  @List.pairwise_mergeSort (String × α) (fun a b => decide (a.1 ≤ b.1))
    (fun _ _ _ hab hbc => decide_eq_true
      (String.le_trans (of_decide_eq_true hab) (of_decide_eq_true hbc)))
    (fun a b => by simp [String.le_total a.1 b.1]) entries

theorem sortByKey_sortByKey (entries : List (String × α)) :
    sortByKey (sortByKey entries) = sortByKey entries :=
  List.mergeSort_of_pairwise (sortByKey_sorted entries)

/-- Sorting looks at the keys alone. -/
theorem sortByKey_map (f : α → β) (entries : List (String × α)) :
    sortByKey (entries.map fun e => (e.1, f e.2)) =
      (sortByKey entries).map fun e => (e.1, f e.2) :=
  (List.map_mergeSort (r := fun a b : String × α => decide (a.1 ≤ b.1))
    (f := fun e => (e.1, f e.2)) fun _ _ _ _ => rfl).symm

/-- Entries with distinct keys have one sorted order. -/
theorem sortByKey_eq_of_perm {as bs : List (String × α)} (distinct : (as.map Prod.fst).Nodup)
    (h : as.Perm bs) : sortByKey as = sortByKey bs := by
  refine List.Perm.eq_of_pairwise ?_ (sortByKey_sorted as) (sortByKey_sorted bs)
    ((sortByKey_perm as).trans (h.trans (sortByKey_perm bs).symm))
  intro a b ha hb hab hba
  have hkey : a.1 = b.1 :=
    String.le_antisymm (of_decide_eq_true hab) (of_decide_eq_true hba)
  have hb : b ∈ as := h.mem_iff.2 (mem_sortByKey.1 hb)
  exact List.inj_on_of_nodup_map distinct (mem_sortByKey.1 ha) hb hkey

end Canonical

open Canonical (sortByKey mem_sortByKey sortByKey_perm sortByKey_sortByKey sortByKey_map
  sortByKey_eq_of_perm)

/-! ## Plain values -/

/-- A value without numbers that are not integers, in which no object repeats a key. -/
inductive Plain : Json → Prop where
  | null : Plain null
  | bool (b : Bool) : Plain (.bool b)
  | int (n : Int) : Plain (.int n)
  | str (s : String) : Plain (.str s)
  | arr {items : List Json} (plain : ∀ v ∈ items, Plain v) : Plain (.arr items)
  | obj {fields : Fields} (distinct : fields.Distinct) (plain : ∀ f ∈ fields, Plain f.2) :
      Plain (.obj fields)

/-- Values that are equal up to the order of keys. -/
inductive Same : Json → Json → Prop where
  | self (v : Json) : Same v v
  /-- Items are compared place by place. -/
  | arr {us vs : List Json} (length : us.length = vs.length)
      (items : ∀ p ∈ us.zip vs, Same p.1 p.2) : Same (.arr us) (.arr vs)
  /-- The keys are those of the other object, in whatever order, and so are their values. -/
  | obj {fs gs : Fields} (keys : fs.keys.Perm gs.keys)
      (values : ∀ k v w, (k, v) ∈ fs → (k, w) ∈ gs → Same v w) : Same (.obj fs) (.obj gs)

mutual

/-- The value with the keys of every object sorted. -/
def ordered : Json → Json
  | .arr items => .arr (orderedItems items)
  | .obj fields => .obj (sortByKey (orderedFields fields))
  | v => v

/-- The items, ordered one by one. -/
def orderedItems : List Json → List Json
  | [] => []
  | v :: vs => ordered v :: orderedItems vs

/-- The fields in the order they have, each with its value ordered. -/
def orderedFields : List (String × Json) → List (String × Json)
  | [] => []
  | (k, v) :: fs => (k, ordered v) :: orderedFields fs

end

theorem orderedItems_eq_map : ∀ items : List Json, orderedItems items = items.map ordered
  | [] => rfl
  | v :: vs => congrArg (ordered v :: ·) (orderedItems_eq_map vs)

theorem orderedFields_eq_map : ∀ fields : Fields,
    orderedFields fields = fields.map fun f => (f.1, f.2.ordered)
  | [] => rfl
  | (k, v) :: fs => congrArg ((k, ordered v) :: ·) (orderedFields_eq_map fs)

theorem ordered_arr (items : List Json) : ordered (.arr items) = .arr (items.map ordered) := by
  rw [ordered, orderedItems_eq_map]

theorem ordered_obj (fields : Fields) :
    ordered (.obj fields) = .obj (sortByKey (fields.map fun f => (f.1, f.2.ordered))) := by
  rw [ordered, orderedFields_eq_map]

/-! ## Objects -/

section Objects

variable {fields fs gs : Fields}

theorem keys_orderedFields (fields : Fields) :
    Fields.keys (fields.map fun f => (f.1, f.2.ordered)) = fields.keys := by
  rw [Fields.keys, List.map_map]
  rfl

theorem distinct_sorted (h : fields.Distinct) : Fields.Distinct (sortByKey fields) :=
  ((sortByKey_perm fields).map Prod.fst).nodup_iff.2 h

theorem distinct_orderedFields (h : fields.Distinct) :
    Fields.Distinct (fields.map fun f => (f.1, f.2.ordered)) := by
  rwa [Fields.Distinct, keys_orderedFields]

/-- A key has one value. -/
theorem value_unique (h : fields.Distinct) {k : String} {v w : Json} (hv : (k, v) ∈ fields)
    (hw : (k, w) ∈ fields) : v = w :=
  congrArg Prod.snd (List.inj_on_of_nodup_map h hv hw rfl)

/-- Fields in another order make the same object. -/
theorem same_of_perm (h : fs.Distinct) (hperm : fs.Perm gs) : Same (.obj fs) (.obj gs) := by
  refine .obj (hperm.map Prod.fst) fun k v w hv hw => ?_
  rw [value_unique h hv (hperm.mem_iff.2 hw)]
  exact .self w

theorem mem_keys {k : String} : k ∈ fields.keys ↔ ∃ v, (k, v) ∈ fields := by
  simp [Fields.keys]

/-- Fields with the same keys and equal values are the same fields in another order. -/
theorem perm_of_keys_of_values (hf : fs.Distinct) (hg : gs.Distinct) (keys : fs.keys.Perm gs.keys)
    (values : ∀ k v w, (k, v) ∈ fs → (k, w) ∈ gs → v = w) : fs.Perm gs := by
  refine (List.perm_ext_iff_of_nodup (.of_map _ hf) (.of_map _ hg)).2 fun f =>
    ⟨fun h => ?_, fun h => ?_⟩
  · obtain ⟨w, hw⟩ := mem_keys.1 (keys.mem_iff.1 (mem_keys.2 ⟨f.2, h⟩))
    have e : f.2 = w := values f.1 f.2 w h hw
    rwa [← e] at hw
  · obtain ⟨v, hv⟩ := mem_keys.1 (keys.mem_iff.2 (mem_keys.2 ⟨f.2, h⟩))
    have e : v = f.2 := values f.1 v f.2 hv h
    rwa [e] at hv

end Objects

/-! ## Ordered values -/

/-- A list of lists compared place by place. -/
theorem map_ordered_eq_iff {us vs : List Json} : us.map ordered = vs.map ordered ↔
    us.length = vs.length ∧ ∀ p ∈ us.zip vs, p.1.ordered = p.2.ordered := by
  rw [← List.forall₂_eq_eq_eq, List.forall₂_map_left_iff, List.forall₂_map_right_iff,
    List.forall₂_iff_zip, Prod.forall]

theorem Plain.ordered {v : Json} (h : v.Plain) : v.ordered.Plain := by
  induction h with
  | null => exact .null
  | bool b => exact .bool b
  | int n => exact .int n
  | str s => exact .str s
  | arr plain ih =>
    rw [ordered_arr]
    refine .arr fun w hw => ?_
    obtain ⟨v, hv, rfl⟩ := List.mem_map.1 hw
    exact ih v hv
  | obj distinct plain ih =>
    rw [ordered_obj]
    refine .obj (distinct_sorted (distinct_orderedFields distinct)) fun g hg => ?_
    obtain ⟨f, hf, rfl⟩ := List.mem_map.1 (mem_sortByKey.1 hg)
    exact ih f hf

theorem Plain.ordered_ordered {v : Json} (h : v.Plain) : v.ordered.ordered = v.ordered := by
  induction h with
  | null | bool | int | str => rfl
  | arr plain ih =>
    rw [ordered_arr, ordered_arr, List.map_map]
    exact congrArg Json.arr (List.map_congr_left ih)
  | obj distinct plain ih =>
    rw [ordered_obj, ordered_obj, ← sortByKey_map, sortByKey_sortByKey, List.map_map]
    exact congrArg (fun fs => Json.obj (sortByKey fs))
      (List.map_congr_left fun f hf => congrArg (f.1, ·) (ih f hf))

theorem Same.ordered_eq {u v : Json} (h : u.Same v) (hu : u.Plain) (hv : v.Plain) :
    u.ordered = v.ordered := by
  induction h with
  | self v => rfl
  | @arr us vs length items ih =>
    cases hu with | arr hus =>
    cases hv with | arr hvs =>
    have hitems : us.map Json.ordered = vs.map Json.ordered :=
      map_ordered_eq_iff.2 ⟨length, fun p hp =>
        ih p hp (hus p.1 (List.of_mem_zip hp).1) (hvs p.2 (List.of_mem_zip hp).2)⟩
    rw [ordered_arr, ordered_arr, hitems]
  | @obj fs gs keys values ih =>
    cases hu with | obj hfs hus =>
    cases hv with | obj hgs hvs =>
    have hfs := distinct_orderedFields hfs
    have hperm : (fs.map fun f => (f.1, f.2.ordered)).Perm
        (gs.map fun g => (g.1, g.2.ordered)) := by
      refine perm_of_keys_of_values hfs (distinct_orderedFields hgs) ?_ ?_
      · rwa [keys_orderedFields, keys_orderedFields]
      · intro k x y hx hy
        obtain ⟨f, hf, ef⟩ := List.mem_map.1 hx
        obtain ⟨g, hg, eg⟩ := List.mem_map.1 hy
        obtain ⟨rfl, rfl⟩ := Prod.mk.inj ef
        obtain ⟨hk, rfl⟩ := Prod.mk.inj eg
        exact ih f.1 f.2 g.2 hf (hk ▸ hg) (hus f hf) (hvs g hg)
    rw [ordered_obj, ordered_obj, sortByKey_eq_of_perm hfs hperm]

/-- Ordering forgets the order of keys and nothing else. -/
theorem Plain.same_of_ordered_eq {u : Json} (hu : u.Plain) :
    ∀ {v : Json}, v.Plain → u.ordered = v.ordered → u.Same v := by
  induction hu with
  | null | bool | int | str =>
    intro v hv h
    cases hv with
    | null | bool | int | str =>
      unfold Json.ordered at h
      exact h ▸ .self _
    | arr => rw [ordered_arr] at h; cases h
    | obj => rw [ordered_obj] at h; cases h
  | @arr us plain ih =>
    intro v hv h
    rw [ordered_arr] at h
    cases hv with
    | null | bool | int | str => cases h
    | obj => rw [ordered_obj] at h; cases h
    | @arr vs hvs =>
      rw [ordered_arr] at h
      obtain ⟨length, items⟩ := map_ordered_eq_iff.1 (Json.arr.inj h)
      exact .arr length fun p hp =>
        ih p.1 (List.of_mem_zip hp).1 (hvs p.2 (List.of_mem_zip hp).2) (items p hp)
  | @obj fs distinct plain ih =>
    intro v hv h
    rw [ordered_obj] at h
    cases hv with
    | null | bool | int | str => cases h
    | arr => rw [ordered_arr] at h; cases h
    | @obj gs hgs hvs =>
      rw [ordered_obj] at h
      have hperm : (fs.map fun f => (f.1, f.2.ordered)).Perm
          (gs.map fun g => (g.1, g.2.ordered)) :=
        (sortByKey_perm _).symm.trans (Json.obj.inj h ▸ sortByKey_perm _)
      refine .obj ?_ fun k v w hv hw => ?_
      · rw [← keys_orderedFields fs, ← keys_orderedFields gs]
        exact hperm.map Prod.fst
      · have hmem : (k, v.ordered) ∈ gs.map fun g => (g.1, g.2.ordered) :=
          hperm.mem_iff.1 (List.mem_map.2 ⟨(k, v), hv, rfl⟩)
        have e : v.ordered = w.ordered :=
          value_unique (distinct_orderedFields hgs) hmem (List.mem_map.2 ⟨(k, w), hw, rfl⟩)
        exact ih (k, v) hv (hvs (k, w) hw) e

/-- Plain values are the same exactly if they are equal once ordered. -/
theorem ordered_eq_iff {u v : Json} (hu : u.Plain) (hv : v.Plain) :
    u.ordered = v.ordered ↔ u.Same v :=
  ⟨hu.same_of_ordered_eq hv, fun h => h.ordered_eq hu hv⟩

theorem Plain.same_ordered {v : Json} (h : v.Plain) : v.Same v.ordered :=
  (ordered_eq_iff h h.ordered).1 h.ordered_ordered.symm

end FormatServer.Json
