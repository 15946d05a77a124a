import FormatServer.SettingsCache
import Mathlib.Data.List.Nodup

/-!
# Entries and fetches

What sending, receiving, evicting and clearing do to the current fetch of a key (`current?_send`,
`current?_evict`) and to the outcome of a fetch (`fetch?_receive`). What is true of every answer is
true of every outcome (`Every`). Entries are sound (`Sound`): one for each key, for a fetch of that
key. As the cache ages nothing that has been fetched is forgotten or changed, and no entry goes back
to an older fetch (`Ages`).
-/

set_option autoImplicit false

namespace FormatServer.SettingsCache

variable {c : SettingsCache}

/-! ## Fetches -/

theorem fetch?_le {n : Nat} {f : Fetch} (h : c.fetch? n = some f) : n ≤ c.fetches.length := by
  cases n with
  | zero => exact Nat.zero_le _
  | succ i => exact (List.getElem?_eq_some_iff.1 h).1

theorem fetch?_send_new (c : SettingsCache) (key uri : String) :
    (c.send key uri).fetch? (c.fetches.length + 1) = some ⟨key, uri, none⟩ :=
  List.getElem?_concat_length

theorem fetch?_send {n : Nat} (h : n ≤ c.fetches.length) (key uri : String) :
    (c.send key uri).fetch? n = c.fetch? n := by
  cases n with
  | zero => rfl
  | succ i => exact List.getElem?_append_left h

theorem outcome?_of_fetch? {n : Nat} {f : Fetch} (h : c.fetch? n = some f) :
    c.outcome? n = f.outcome := by
  rw [outcome?, h]
  rfl

/-- The cache after a fetch has ended that was under way. -/
def ended (c : SettingsCache) (n : Nat) (f : Fetch) (outcome : Resolution) : SettingsCache :=
  { c with fetches := c.fetches.set (n - 1) { f with outcome := some outcome } }

/-- An answer ends the fetch if it is under way, and else nothing. -/
theorem receive_cases (c : SettingsCache) (n : Nat) (trusted : Bool) (a : Except String Json) :
    (c.receive n trusted a = c ∧ ∀ f, c.fetch? n = some f → f.outcome ≠ none) ∨
      ∃ f, c.fetch? n = some f ∧ f.outcome = none ∧
        c.receive n trusted a = c.ended n f (resolve f.uri trusted a) := by
  unfold receive
  cases c.fetch? n with
  | none => exact .inl ⟨rfl, fun _ h => by cases h⟩
  | some f =>
    cases ho : f.outcome with
    | some o =>
      refine .inl ⟨?_, fun f' h => ?_⟩
      · dsimp only
        rw [ho]
      · cases h
        rw [ho]
        exact Option.some_ne_none o
    | none =>
      refine .inr ⟨f, rfl, ho, ?_⟩
      dsimp only
      rw [ho]
      rfl

theorem fetch?_ended {n : Nat} {f : Fetch} (h : c.fetch? n = some f) (outcome : Resolution) (m : Nat) :
    (c.ended n f outcome).fetch? m =
      if m = n then some { f with outcome := some outcome } else c.fetch? m := by
  cases n with
  | zero => cases h
  | succ i =>
    have hi : i < c.fetches.length := (List.getElem?_eq_some_iff.1 h).1
    cases m with
    | zero => rfl
    | succ j =>
      show (c.fetches.set i _)[j]? = _
      rw [List.getElem?_set]
      by_cases hij : i = j
      · rw [if_pos hij, if_pos hi, if_pos (by rw [hij])]
      · rw [if_neg hij, if_neg fun h => hij (Nat.succ.inj h).symm]
        rfl

/-- A fetch that is answered while it is under way has ended as the answer says. -/
theorem fetch?_receive {n : Nat} {f : Fetch} (h : c.fetch? n = some f) (hpending : f.outcome = none)
    (trusted : Bool) (a : Except String Json) :
    (c.receive n trusted a).fetch? n = some { f with outcome := some (resolve f.uri trusted a) } := by
  obtain ⟨_, hended⟩ | ⟨g, hg, _, hended⟩ := c.receive_cases n trusted a
  · exact absurd hpending (hended f h)
  · rw [h] at hg
    cases hg
    rw [hended, fetch?_ended h, if_pos rfl]

@[simp] theorem entries_receive (c : SettingsCache) (n : Nat) (trusted : Bool)
    (a : Except String Json) : (c.receive n trusted a).entries = c.entries := by
  obtain ⟨hsame, _⟩ | ⟨f, _, _, hended⟩ := c.receive_cases n trusted a
  · rw [hsame]
  · rw [hended]
    rfl

@[simp] theorem fetches_evict (c : SettingsCache) (n : Nat) : (c.evict n).fetches = c.fetches := by
  unfold evict
  split <;> rfl

@[simp] theorem fetch?_evict (c : SettingsCache) (n m : Nat) :
    (c.evict n).fetch? m = c.fetch? m := by
  unfold fetch?
  rw [fetches_evict]

@[simp] theorem outcome?_evict (c : SettingsCache) (n m : Nat) :
    (c.evict n).outcome? m = c.outcome? m := by
  rw [outcome?, fetch?_evict, outcome?]

@[simp] theorem current?_receive (c : SettingsCache) (n : Nat) (trusted : Bool)
    (a : Except String Json) (key : String) :
    (c.receive n trusted a).current? key = c.current? key := by
  rw [current?, entries_receive, current?]

/-- Evicting a fetch takes the entries that hold it if it has failed, and no other. -/
theorem mem_entries_evict {n : Nat} {e : String × Nat} :
    e ∈ (c.evict n).entries ↔
      e ∈ c.entries ∧ (e.2 = n → ∀ fault, c.outcome? n ≠ some (.error fault)) := by
  unfold evict
  split
  · next fault ho =>
    show e ∈ c.entries.filter _ ↔ _
    rw [List.mem_filter]
    refine and_congr_right fun _ => ⟨fun h hn => absurd hn (by simpa using h), fun h => ?_⟩
    simpa using fun hn => h hn fault ho
  · next hgood => exact ⟨fun he => ⟨he, fun _ => hgood⟩, And.left⟩

/-! ## Outcomes -/

/-- Every fetch that has ended has ended as `P` says. -/
def Every (P : Resolution → Prop) (c : SettingsCache) : Prop :=
  ∀ f ∈ c.fetches, ∀ o, f.outcome = some o → P o

namespace Every

variable {P : Resolution → Prop} (hc : c.Every P)
include hc

theorem send (key uri : String) : (c.send key uri).Every P := by
  intro f hf o ho
  rcases List.mem_append.1 hf with hf | hf
  · exact hc f hf o ho
  · cases List.mem_singleton.1 hf
    cases ho

theorem receive {trusted : Bool} {a : Except String Json} (n : Nat)
    (ha : ∀ uri, P (resolve uri trusted a)) : (c.receive n trusted a).Every P := by
  obtain ⟨hsame, _⟩ | ⟨f, _, _, hended⟩ := c.receive_cases n trusted a
  · rw [hsame]
    exact hc
  · rw [hended]
    intro g hg o ho
    rcases List.mem_or_eq_of_mem_set hg with hg | rfl
    · exact hc g hg o ho
    · cases ho
      exact ha f.uri

theorem evict (n : Nat) : (c.evict n).Every P := by
  rw [Every, fetches_evict]
  exact hc

theorem clear : c.clear.Every P := hc

theorem outcome {n : Nat} {o : Resolution} (h : c.outcome? n = some o) : P o := by
  obtain ⟨f, hfetch, hout⟩ := Option.bind_eq_some_iff.1 h
  unfold fetch? at hfetch
  split at hfetch
  · cases hfetch
  · exact hc f (List.mem_of_getElem? hfetch) o hout

end Every

/-! ## Soundness -/

/-- Each key has one entry at most, and this holds a fetch for the key. -/
structure Sound (c : SettingsCache) : Prop where
  distinct : (c.entries.map Prod.fst).Nodup
  held : ∀ key n, (key, n) ∈ c.entries → ∃ f, c.fetch? n = some f ∧ f.key = key

namespace Sound

variable (hc : c.Sound)
include hc

theorem current?_iff {key : String} {n : Nat} : c.current? key = some n ↔ (key, n) ∈ c.entries := by
  refine List.lookup_eq_some_iff.trans ⟨?_, fun hmem => ?_⟩
  · rintro ⟨l₁, l₂, hl, _⟩
    rw [hl]
    exact List.mem_append_right l₁ List.mem_cons_self
  · obtain ⟨l₁, l₂, hl⟩ := List.append_of_mem hmem
    refine ⟨l₁, l₂, hl, fun e he => ?_⟩
    have hdistinct := hc.distinct
    rw [hl, List.map_append, List.nodup_append] at hdistinct
    simpa using (hdistinct.2.2 e.1 (List.mem_map_of_mem he) key List.mem_cons_self).symm

theorem current? {key : String} {n : Nat} (h : c.current? key = some n) :
    ∃ f, c.fetch? n = some f ∧ f.key = key :=
  hc.held key n (hc.current?_iff.1 h)

theorem send (key uri : String) : (c.send key uri).Sound := by
  refine ⟨?_, fun k n hmem => ?_⟩
  · show (key :: (c.entries.filter (·.1 ≠ key)).map Prod.fst).Nodup
    rw [List.nodup_cons]
    refine ⟨fun h => ?_, hc.distinct.sublist (List.filter_sublist.map _)⟩
    obtain ⟨e, he, hkey⟩ := List.mem_map.1 h
    simpa [hkey] using (List.mem_filter.1 he).2
  · rcases List.mem_cons.1 hmem with h | h
    · cases h
      exact ⟨_, fetch?_send_new c key uri, rfl⟩
    · obtain ⟨f, hf, hkey⟩ := hc.held k n (List.mem_filter.1 h).1
      exact ⟨f, (fetch?_send (fetch?_le hf) key uri).trans hf, hkey⟩

theorem receive (n : Nat) (trusted : Bool) (a : Except String Json) :
    (c.receive n trusted a).Sound := by
  obtain ⟨hsame, _⟩ | ⟨f, hf, _, hended⟩ := c.receive_cases n trusted a
  · rw [hsame]
    exact hc
  · rw [hended]
    refine ⟨hc.distinct, fun k m hmem => ?_⟩
    obtain ⟨g, hg, hkey⟩ := hc.held k m hmem
    rw [fetch?_ended hf]
    by_cases hm : m = n
    · rw [hm, hf] at hg
      cases hg
      rw [if_pos hm]
      exact ⟨_, rfl, hkey⟩
    · rw [if_neg hm]
      exact ⟨g, hg, hkey⟩

theorem evict (n : Nat) : (c.evict n).Sound := by
  refine ⟨?_, fun k m hmem => ?_⟩
  · unfold SettingsCache.evict
    split
    · exact hc.distinct.sublist (List.filter_sublist.map _)
    · exact hc.distinct
  · rw [fetch?_evict]
    exact hc.held k m (mem_entries_evict.1 hmem).1

/-- A new fetch becomes the current one of its key, and other keys keep theirs. -/
theorem current?_send (key uri k : String) (n : Nat) : (c.send key uri).current? k = some n ↔
    k = key ∧ n = c.fetches.length + 1 ∨ k ≠ key ∧ c.current? k = some n := by
  rw [(hc.send key uri).current?_iff, hc.current?_iff]
  show (k, n) ∈ (key, _) :: c.entries.filter _ ↔ _
  rw [List.mem_cons, List.mem_filter, Prod.mk.injEq]
  simp [and_comm]

/-- Evicting a fetch that has failed takes its entry, and no other. -/
theorem current?_evict (n : Nat) (k : String) (m : Nat) : (c.evict n).current? k = some m ↔
    c.current? k = some m ∧ (m = n → ∀ fault, c.outcome? n ≠ some (.error fault)) := by
  rw [(hc.evict n).current?_iff, hc.current?_iff]
  exact mem_entries_evict

omit hc in
theorem clear : c.clear.Sound := ⟨List.nodup_nil, fun _ _ h => absurd h List.not_mem_nil⟩

end Sound

/-! ## Ageing -/

/-- The second cache comes after the first: fetches are still there, those that have ended have not
changed, and an entry for an old fetch is an old entry. -/
structure Ages (c c' : SettingsCache) : Prop where
  fetch : ∀ n f, c.fetch? n = some f →
    ∃ f', c'.fetch? n = some f' ∧ f'.key = f.key ∧ ∀ o, f.outcome = some o → f'.outcome = some o
  count : c.fetches.length ≤ c'.fetches.length
  entry : ∀ e ∈ c'.entries, e.2 ≤ c.fetches.length → e ∈ c.entries

namespace Ages

theorem refl (c : SettingsCache) : c.Ages c :=
  ⟨fun _ f hf => ⟨f, hf, rfl, fun _ => id⟩, Nat.le_refl _, fun _ he _ => he⟩

theorem trans {c c' c'' : SettingsCache} (h : c.Ages c') (h' : c'.Ages c'') : c.Ages c'' := by
  refine ⟨fun n f hf => ?_, Nat.le_trans h.count h'.count, fun e he hold => ?_⟩
  · obtain ⟨f', hf', hkey, hout⟩ := h.fetch n f hf
    obtain ⟨f'', hf'', hkey', hout'⟩ := h'.fetch n f' hf'
    exact ⟨f'', hf'', hkey'.trans hkey, fun o ho => hout' o (hout o ho)⟩
  · exact h.entry e (h'.entry e he (Nat.le_trans hold h.count)) hold

theorem send (c : SettingsCache) (key uri : String) : c.Ages (c.send key uri) := by
  refine ⟨fun n f hf => ⟨f, (fetch?_send (fetch?_le hf) key uri).trans hf, rfl, fun _ => id⟩, ?_, ?_⟩
  · show _ ≤ (c.fetches ++ _).length
    rw [List.length_append]
    exact Nat.le_add_right _ _
  · intro e he hold
    rcases List.mem_cons.1 he with rfl | he
    · exact absurd hold (Nat.not_succ_le_self _)
    · exact (List.mem_filter.1 he).1

theorem receive (c : SettingsCache) (n : Nat) (trusted : Bool) (a : Except String Json) :
    c.Ages (c.receive n trusted a) := by
  obtain ⟨hsame, _⟩ | ⟨f, hf, hpending, hended⟩ := c.receive_cases n trusted a
  · rw [hsame]
    exact refl c
  · rw [hended]
    refine ⟨fun m g hg => ?_, ?_, fun e he _ => he⟩
    · rw [fetch?_ended hf]
      by_cases hm : m = n
      · rw [hm, hf] at hg
        cases hg
        rw [if_pos hm]
        exact ⟨_, rfl, rfl, fun o ho => by rw [hpending] at ho; cases ho⟩
      · rw [if_neg hm]
        exact ⟨g, hg, rfl, fun _ => id⟩
    · show _ ≤ (c.fetches.set _ _).length
      exact Nat.le_of_eq List.length_set.symm

theorem evict (c : SettingsCache) (n : Nat) : c.Ages (c.evict n) := by
  refine ⟨fun m f hf => ⟨f, ?_, rfl, fun _ => id⟩, ?_, fun e he _ => (mem_entries_evict.1 he).1⟩
  · rw [fetch?_evict, hf]
  · exact Nat.le_of_eq (congrArg List.length (fetches_evict c n).symm)

theorem clear (c : SettingsCache) : c.Ages c.clear :=
  ⟨fun _ f hf => ⟨f, hf, rfl, fun _ => id⟩, Nat.le_refl _, fun _ he => absurd he List.not_mem_nil⟩

/-- How a fetch has ended does not change. -/
theorem outcome {c c' : SettingsCache} (h : c.Ages c') {n : Nat} {o : Resolution}
    (ho : c.outcome? n = some o) : c'.outcome? n = some o := by
  obtain ⟨f, hf, hout⟩ := Option.bind_eq_some_iff.1 ho
  obtain ⟨f', hf', _, hkeep⟩ := h.fetch n f hf
  rw [outcome?_of_fetch? hf', hkeep o hout]

end Ages

end FormatServer.SettingsCache
