import FormatServer.Proofs.Path.Parse
import FormatServer.Workspace.Search

/-!
# What a search upwards finds

A search finds the name in the deepest of the directories it comes through that have the name
(`findUp_eq_some`), and nothing if all of them lack it (`findUp_eq_none`). It comes through the
directories that contain its start, and with a directory to stop at through those of them that this
one contains (`mem_searched`). Where the system refuses to say whether a directory has the name, the
search ends with a fault (`findUp_eq_error`).
-/

set_option autoImplicit false

namespace FormatServer.Workspace

variable {files : Files} {name start : String} {stop? : Option Path}

/-- The name exists in the directory. -/
def Has (files : Files) (name : String) (d : Path) : Prop :=
  files.exists? (d.join (Path.parse name)).toString = .ok true

instance : DecidablePred (Has files name) := fun _ => decidable_of_iff _ Files.has_iff

/-- The name does not exist in the directory. -/
def Lacks (files : Files) (name : String) (d : Path) : Prop :=
  files.exists? (d.join (Path.parse name)).toString = .ok false

/-- The system refuses to say whether the name exists in the directory. -/
def Refuses (files : Files) (name : String) (d : Path) : Prop :=
  files.exists? (d.join (Path.parse name)).toString = .error .pathRefused

theorem Has.not_lacks {d : Path} (h : Has files name d) : ¬ Lacks files name d := fun h' => by
  cases Except.ok.inj (h.symm.trans h')

theorem Refuses.not_lacks {d : Path} (h : Refuses files name d) : ¬ Lacks files name d := fun h' => by
  cases h.symm.trans h'

theorem Has.not_refuses {d : Path} (h : Has files name d) : ¬ Refuses files name d := fun h' => by
  cases h.symm.trans h'

theorem has_or_lacks_or_refuses (files : Files) (name : String) (d : Path) :
    Has files name d ∨ Lacks files name d ∨ Refuses files name d := by
  unfold Has Lacks Refuses
  cases h : files.exists? (d.join (Path.parse name)).toString with
  | ok b => cases b <;> simp
  | error e => simp [(Files.exists?_eq_error.1 h).2]

/-- A directory of which the system says something lacks a name that it has not got. -/
theorem lacks_iff {d : Path} :
    Lacks files name d ↔ ¬ Has files name d ∧ ¬ Refuses files name d := by
  constructor
  · exact fun h => ⟨fun h' => h'.not_lacks h, fun h' => h'.not_lacks h⟩
  · rintro ⟨hhas, hrefuses⟩
    obtain h | h | h := has_or_lacks_or_refuses files name d
    · exact absurd h hhas
    · exact h
    · exact absurd h hrefuses

/-- The directory lies between a start and the directory to stop at, if there is one. -/
structure Between (stop? : Option Path) (start d : Path) : Prop where
  above : d.contains start = true
  below : ∀ stop, stop? = some stop → stop.contains d = true

/-- Of some directories, one that has the name and is as deep as any other that has it, if the system
says of all the deeper ones whether they have it. -/
structure Nearest (files : Files) (name : String) (among : Path → Prop) (d : Path) : Prop where
  member : among d
  has : Has files name d
  deepest : ∀ d', among d' → Has files name d' → d'.depth ≤ d.depth
  told : ∀ d', among d' → Refuses files name d' → d'.depth ≤ d.depth

/-- Of some directories, one of which the system refuses to say whether it has the name, all the
deeper ones lacking it. -/
structure Refused (files : Files) (name : String) (among : Path → Prop) (d : Path) : Prop where
  member : among d
  refuses : Refuses files name d
  lacks : ∀ d', among d' → d.depth < d'.depth → Lacks files name d'

theorem nearest_iff {among : Path → Prop} {d : Path} : Nearest files name among d ↔
    among d ∧ Has files name d ∧ ∀ d', among d' → d.depth < d'.depth → Lacks files name d' := by
  constructor
  · intro h
    refine ⟨h.member, h.has, fun d' hd' hdeep => lacks_iff.2 ⟨fun hhas => ?_, fun hrefuses => ?_⟩⟩
    · exact Nat.not_le.2 hdeep (h.deepest d' hd' hhas)
    · exact Nat.not_le.2 hdeep (h.told d' hd' hrefuses)
  · rintro ⟨hd, hhas, hlacks⟩
    refine ⟨hd, hhas, fun d' hd' h => ?_, fun d' hd' h => ?_⟩
    · exact Nat.not_lt.1 fun hdeep => h.not_lacks (hlacks d' hd' hdeep)
    · exact Nat.not_lt.1 fun hdeep => h.not_lacks (hlacks d' hd' hdeep)

/-- Of ancestors of a path the shorter one contains the other. -/
theorem contains_iff_depth_le {d d' p : Path} (hd : d.contains p = true)
    (hd' : d'.contains p = true) : d.contains d' = true ↔ d.depth ≤ d'.depth := by
  obtain ⟨hanchor, hnames⟩ := Path.contains_iff.1 hd
  obtain ⟨hanchor', hnames'⟩ := Path.contains_iff.1 hd'
  rw [Path.contains_iff, Path.depth, Path.depth, hanchor, hanchor', Nat.add_le_add_iff_right]
  exact ⟨fun h => h.2.length_le, fun h => ⟨rfl, List.prefix_of_prefix_length_le hnames hnames' h⟩⟩

/-- The search stops at a directory when it has come through all that are not above it. -/
theorem mem_searched_some {stop d : Path} {dirs : List Path}
    (hsorted : dirs.Pairwise fun d d' => d'.depth < d.depth) (hstop : stop ∈ dirs) :
    d ∈ searched (some stop) dirs ↔ d ∈ dirs ∧ stop.depth ≤ d.depth := by
  induction dirs with
  | nil => cases hstop
  | cons d' dirs ih =>
    obtain ⟨hd', hsorted⟩ := List.pairwise_cons.1 hsorted
    simp only [searched, Option.some.injEq]
    by_cases h : stop = d'
    · subst h
      rw [if_pos rfl, List.mem_singleton, List.mem_cons]
      constructor
      · rintro rfl
        exact ⟨.inl rfl, Nat.le_refl _⟩
      · rintro ⟨rfl | hd, hle⟩
        · rfl
        · exact absurd (hd' d hd) (Nat.not_lt.2 hle)
    · have hmem : stop ∈ dirs := (List.mem_cons.1 hstop).resolve_left h
      rw [if_neg h, List.mem_cons, List.mem_cons, ih hsorted hmem]
      constructor
      · rintro (rfl | ⟨hd, hle⟩)
        · exact ⟨.inl rfl, Nat.le_of_lt (hd' stop hmem)⟩
        · exact ⟨.inr hd, hle⟩
      · rintro ⟨rfl | hd, hle⟩
        · exact .inl rfl
        · exact .inr ⟨hd, hle⟩

theorem searched_none (dirs : List Path) : searched none dirs = dirs := by
  induction dirs with
  | nil => rfl
  | cons d dirs ih => simp [searched, ih]

theorem searched_sublist (stop? : Option Path) (dirs : List Path) :
    (searched stop? dirs).Sublist dirs := by
  induction dirs with
  | nil => exact .slnil
  | cons d dirs ih =>
    rw [searched]
    split
    · exact List.singleton_sublist.2 (.head _)
    · exact ih.cons_cons d

theorem mem_searched {p d : Path} (hstop : ∀ stop, stop? = some stop → stop.contains p = true) :
    d ∈ searched stop? p.chain ↔ Between stop? p d := by
  cases stop? with
  | none =>
    rw [searched_none, Path.mem_chain]
    exact ⟨fun h => ⟨h, fun _ h => nomatch h⟩, fun h => h.above⟩
  | some stop =>
    have hcontains := hstop stop rfl
    rw [mem_searched_some p.chain_sorted (Path.mem_chain.2 hcontains), Path.mem_chain]
    constructor
    · rintro ⟨hd, hle⟩
      refine ⟨hd, fun _ h => ?_⟩
      cases h
      exact (contains_iff_depth_le hcontains hd).2 hle
    · exact fun h => ⟨h.above, (contains_iff_depth_le hcontains h.above).1 (h.below stop rfl)⟩

/-- Of directories that come the deeper ones first, those before one are those that are deeper. -/
theorem split_iff_of_sorted {dirs : List Path} {P : Path → Prop} {d : Path}
    (hsorted : dirs.Pairwise fun d d' => d'.depth < d.depth) :
    (∃ before after, dirs = before ++ d :: after ∧ ∀ q ∈ before, P q) ↔
      d ∈ dirs ∧ ∀ d' ∈ dirs, d.depth < d'.depth → P d' := by
  constructor
  · rintro ⟨before, after, rfl, hbefore⟩
    obtain ⟨_, hafter, _⟩ := List.pairwise_append.1 hsorted
    refine ⟨List.mem_append_right before List.mem_cons_self, fun d' hd' hdeep => ?_⟩
    rcases List.mem_append.1 hd' with hd' | hd'
    · exact hbefore d' hd'
    · rcases List.mem_cons.1 hd' with rfl | hd'
      · exact absurd hdeep (Nat.lt_irrefl _)
      · exact absurd hdeep (Nat.lt_asymm ((List.pairwise_cons.1 hafter).1 d' hd'))
  · rintro ⟨hd, hdeeper⟩
    obtain ⟨before, after, rfl⟩ := List.append_of_mem hd
    refine ⟨before, after, rfl, fun q hq => hdeeper q (List.mem_append_left _ hq) ?_⟩
    exact (List.pairwise_append.1 hsorted).2.2 q hq d List.mem_cons_self

/-- The name in the first of some directories that does not lack it. -/
theorem firstExisting_map_eq_some {dirs : List Path} {p : Path} :
    firstExisting files (dirs.map (·.join (Path.parse name))) = .ok (some p) ↔
      ∃ d, (∃ before after, dirs = before ++ d :: after ∧ ∀ q ∈ before, Lacks files name q) ∧
        Has files name d ∧ p = d.join (Path.parse name) := by
  rw [firstExisting_eq_some]
  constructor
  · rintro ⟨before, after, hsplit, hbefore, hp⟩
    obtain ⟨ds, rest, rfl, rfl, hrest⟩ := List.map_eq_append_iff.1 hsplit
    obtain ⟨d, ds', rfl, rfl, rfl⟩ := List.map_eq_cons_iff.1 hrest
    exact ⟨d, ⟨ds, ds', rfl, fun q hq => hbefore _ (List.mem_map_of_mem hq)⟩, hp, rfl⟩
  · rintro ⟨d, ⟨before, after, rfl, hbefore⟩, hhas, rfl⟩
    exact ⟨_, _, List.map_append, List.forall_mem_map.2 hbefore, hhas⟩

theorem firstExisting_map_eq_none {dirs : List Path} :
    firstExisting files (dirs.map (·.join (Path.parse name))) = .ok none ↔
      ∀ d ∈ dirs, Lacks files name d := by
  rw [firstExisting_eq_none, List.forall_mem_map]
  rfl

theorem firstExisting_map_eq_error {dirs : List Path} {e : Fault} :
    firstExisting files (dirs.map (·.join (Path.parse name))) = .error e ↔
      e = .pathRefused ∧ ∃ d, (∃ before after, dirs = before ++ d :: after ∧
        ∀ q ∈ before, Lacks files name q) ∧ Refuses files name d := by
  rw [firstExisting_eq_error]
  constructor
  · rintro ⟨before, p, after, hsplit, hbefore, hp⟩
    obtain ⟨ds, rest, rfl, rfl, hrest⟩ := List.map_eq_append_iff.1 hsplit
    obtain ⟨d, ds', rfl, rfl, rfl⟩ := List.map_eq_cons_iff.1 hrest
    obtain rfl := (Files.exists?_eq_error.1 hp).2
    exact ⟨rfl, d, ⟨ds, ds', rfl, fun q hq => hbefore _ (List.mem_map_of_mem hq)⟩, hp⟩
  · rintro ⟨rfl, d, ⟨before, after, rfl, hbefore⟩, hrefuses⟩
    exact ⟨_, _, _, List.map_append, List.forall_mem_map.2 hbefore, hrefuses⟩

/-- What a search is told to stop at. -/
def limit (stop : Option String) : Option Path := (stop.filter (· ≠ "")).map Path.parse

section

variable {stop : Option String} (hlimit : limit stop = stop?)
  (hstop : ∀ d, stop? = some d → d.contains (Path.parse start) = true)
include hlimit hstop

/-- Where a search comes to after directories that lack the name. -/
theorem search_reaches {d : Path} :
    (∃ before after, searched (limit stop) (Path.parse start).chain = before ++ d :: after ∧
        ∀ q ∈ before, Lacks files name q) ↔
      Between stop? (Path.parse start) d ∧ ∀ d', Between stop? (Path.parse start) d' →
        d.depth < d'.depth → Lacks files name d' := by
  subst hlimit
  have hsorted : (searched (limit stop) (Path.parse start).chain).Pairwise
      fun d d' => d'.depth < d.depth :=
    (Path.parse start).chain_sorted.sublist (searched_sublist _ _)
  rw [split_iff_of_sorted hsorted]
  simp only [mem_searched hstop]

theorem findUp_eq_some {p : Path} : findUp files name start stop = .ok (some p) ↔
    ∃ d, Nearest files name (Between stop? (Path.parse start)) d ∧
      p = d.join (Path.parse name) := by
  refine firstExisting_map_eq_some.trans (exists_congr fun d => ?_)
  rw [← limit, search_reaches hlimit hstop, nearest_iff]
  exact ⟨fun ⟨⟨hd, hlacks⟩, hhas, hp⟩ => ⟨⟨hd, hhas, hlacks⟩, hp⟩,
    fun ⟨⟨hd, hhas, hlacks⟩, hp⟩ => ⟨⟨hd, hlacks⟩, hhas, hp⟩⟩

theorem findUp_eq_none : findUp files name start stop = .ok none ↔
    ∀ d, Between stop? (Path.parse start) d → Lacks files name d := by
  subst hlimit
  refine firstExisting_map_eq_none.trans (forall_congr' fun d => ?_)
  exact imp_congr (mem_searched hstop) Iff.rfl

theorem findUp_eq_error {e : Fault} : findUp files name start stop = .error e ↔
    e = .pathRefused ∧ ∃ d, Refused files name (Between stop? (Path.parse start)) d := by
  refine firstExisting_map_eq_error.trans (and_congr_right fun _ => exists_congr fun d => ?_)
  rw [← limit, search_reaches hlimit hstop]
  exact ⟨fun ⟨⟨hd, hlacks⟩, h⟩ => ⟨hd, h, hlacks⟩, fun h => ⟨⟨h.member, h.lacks⟩, h.refuses⟩⟩

end

end FormatServer.Workspace
