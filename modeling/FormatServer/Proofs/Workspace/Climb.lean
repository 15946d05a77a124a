import Mathlib.Logic.Function.Iterate
import FormatServer.Proofs.Workspace.Search

/-!
# Climbing from directory to parent

`climb` is the search upwards as a loop: it looks in a directory, ends if the name is there, if it is
to stop there or if the directory is its own parent, and else goes on with the parent. `findUp` finds
what the loop finds (`climb_snd`). `Climbed` says all that a loop can do; from it, in terms of the
parents of the start, follow what a search finds and in which directories it looks
(`findUp_nearest`).
-/

set_option autoImplicit false

namespace FormatServer

/-! ## Parents of parents -/

namespace Path

variable {p : Path}

theorem iterate_parent (p : Path) (n : Nat) :
    parent^[n] p = ⟨p.anchor, p.names.take (p.names.length - n)⟩ := by
  induction n with
  | zero => simp
  | succ n ih =>
    rw [Function.iterate_succ_apply', ih, parent, List.dropLast_eq_take, List.take_take,
      List.length_take]
    congr 2
    omega

theorem parent_eq_self_iff : p.parent = p ↔ p.names = [] := by
  constructor
  · intro h
    have hlength := congrArg (fun q : Path => q.names.length) h
    simp only [parent, List.length_dropLast] at hlength
    exact List.eq_nil_of_length_eq_zero (by omega)
  · exact parent_of_names_nil

/-- A path that is its own parent is reached after as many steps as the path has names. -/
theorem parent_iterate_length {n : Nat} (h : p.names.length ≤ n) :
    (parent^[n] p).parent = parent^[n] p := by
  rw [parent_eq_self_iff, iterate_parent, Nat.sub_eq_zero_of_le h]
  rfl

theorem iterate_parent_of_fixed {n m : Nat} (h : (parent^[n] p).parent = parent^[n] p)
    (hm : n ≤ m) : parent^[m] p = parent^[n] p := by
  obtain ⟨k, rfl⟩ := Nat.exists_eq_add_of_le' hm
  rw [Function.iterate_add_apply]
  exact Function.iterate_fixed h k

/-- A path that contains another one is so many parents above it as it has fewer names. -/
theorem iterate_parent_of_contains {s : Path} (h : s.contains p = true) :
    parent^[p.names.length - s.names.length] p = s := by
  obtain ⟨hanchor, hnames⟩ := contains_iff.1 h
  have hlength := hnames.length_le
  rw [iterate_parent, Nat.sub_sub_self hlength, ← List.prefix_iff_eq_take.1 hnames, ← hanchor]

theorem contains_iterate_parent {n m : Nat} (h : n ≤ m) :
    (parent^[m] p).contains (parent^[n] p) = true := by
  rw [iterate_parent, iterate_parent, contains_iff]
  exact ⟨rfl, List.take_prefix_take_left (by omega)⟩

end Path

/-! ## The loop -/

namespace Workspace

variable {files : Files} {name start : String} {stop? : Option Path} {d s p : Path} {n : Nat}

/-- Looks for a name in a directory and, if it does not end there, in those above: the directories in
which it looks, in their order, and what it finds. -/
def climb (files : Files) (name : String) (stop? : Option Path) (d : Path) :
    List Path × Except Fault (Option Path) :=
  match files.exists? (d.join (Path.parse name)).toString with
  | .error e => ([d], .error e)
  | .ok true => ([d], .ok (some (d.join (Path.parse name))))
  | .ok false =>
    if stop? = some d then ([d], .ok none)
    else if d.parent = d then ([d], .ok none)
    else
      let above := climb files name stop? d.parent
      (d :: above.1, above.2)
termination_by d.names.length
decreasing_by
  have hnames : d.names ≠ [] := fun h => ‹¬ d.parent = d› (Path.parent_of_names_nil h)
  have hlength := List.length_pos_iff.2 hnames
  simp only [Path.parent, List.length_dropLast]
  omega

/-- The loop ends at the `n`th parent: it looks in every directory up to that one, and passes by those
before because they lack the name, are not where to stop, and have a parent. -/
structure Climbed (files : Files) (name : String) (stop? : Option Path) (d : Path) (n : Nat)
    (r : List Path × Except Fault (Option Path)) : Prop where
  looked : r.1 = (List.range (n + 1)).map fun m => Path.parent^[m] d
  lacks : ∀ m < n, Lacks files name (Path.parent^[m] d)
  unstopped : ∀ m < n, stop? ≠ some (Path.parent^[m] d)
  parented : ∀ m < n, (Path.parent^[m] d).parent ≠ Path.parent^[m] d
  found : Has files name (Path.parent^[n] d) →
    r.2 = .ok (some ((Path.parent^[n] d).join (Path.parse name)))
  refused : Refuses files name (Path.parent^[n] d) → r.2 = .error .pathRefused
  nothing : Lacks files name (Path.parent^[n] d) → r.2 = .ok none ∧
    (stop? = some (Path.parent^[n] d) ∨ (Path.parent^[n] d).parent = Path.parent^[n] d)

/-- The loop ends in the directory in which it begins. -/
theorem Climbed.here {r : Except Fault (Option Path)}
    (hfound : Has files name d → r = .ok (some (d.join (Path.parse name))))
    (hrefused : Refuses files name d → r = .error .pathRefused)
    (hnothing : Lacks files name d → r = .ok none ∧ (stop? = some d ∨ d.parent = d)) :
    Climbed files name stop? d 0 ([d], r) where
  looked := rfl
  lacks _ hm := absurd hm (Nat.not_lt_zero _)
  unstopped _ hm := absurd hm (Nat.not_lt_zero _)
  parented _ hm := absurd hm (Nat.not_lt_zero _)
  found := hfound
  refused := hrefused
  nothing := hnothing

theorem Climbed.next {r : List Path × Except Fault (Option Path)}
    (h : Climbed files name stop? d.parent n r) (hlacks : Lacks files name d)
    (hstop : stop? ≠ some d) (hparent : d.parent ≠ d) :
    Climbed files name stop? d (n + 1) (d :: r.1, r.2) where
  looked := by
    rw [h.looked, List.range_succ_eq_map (n := n + 1), List.map_cons, List.map_map]
    rfl
  lacks
    | 0, _ => hlacks
    | m + 1, hm => h.lacks m (Nat.lt_of_succ_lt_succ hm)
  unstopped
    | 0, _ => hstop
    | m + 1, hm => h.unstopped m (Nat.lt_of_succ_lt_succ hm)
  parented
    | 0, _ => hparent
    | m + 1, hm => h.parented m (Nat.lt_of_succ_lt_succ hm)
  found := h.found
  refused := h.refused
  nothing := h.nothing

theorem climbed (files : Files) (name : String) (stop? : Option Path) (d : Path) :
    ∃ n, Climbed files name stop? d n (climb files name stop? d) := by
  fun_induction climb files name stop? d with
  | case1 d e herror =>
    obtain rfl := (Files.exists?_eq_error.1 herror).2
    exact ⟨0, .here (fun h => absurd herror h.not_refuses) (fun _ => rfl)
      fun h => absurd h (Refuses.not_lacks herror)⟩
  | case2 d hhas =>
    exact ⟨0, .here (fun _ => rfl) (fun h => absurd h (Has.not_refuses hhas))
      fun h => absurd h (Has.not_lacks hhas)⟩
  | case3 d hlacks hstop =>
    exact ⟨0, .here (fun h => absurd hlacks h.not_lacks) (fun h => absurd hlacks h.not_lacks)
      fun _ => ⟨rfl, .inl hstop⟩⟩
  | case4 d hlacks _ hparent =>
    exact ⟨0, .here (fun h => absurd hlacks h.not_lacks) (fun h => absurd hlacks h.not_lacks)
      fun _ => ⟨rfl, .inr hparent⟩⟩
  | case5 d hlacks hstop hparent above ih =>
    obtain ⟨n, hn⟩ := ih
    exact ⟨n + 1, hn.next hlacks hstop hparent⟩

/-- What the loop does depends on nothing but what the system says of the directories in which it
looks. -/
theorem climb_congr {files' : Files}
    (h : ∀ q ∈ (climb files name stop? d).1, files'.exists? (q.join (Path.parse name)).toString =
      files.exists? (q.join (Path.parse name)).toString) :
    climb files' name stop? d = climb files name stop? d := by
  fun_induction climb files name stop? d with
  | case1 d e herror => rw [climb, h d (.head _), herror]
  | case2 d hhas => rw [climb, h d (.head _), hhas]
  | case3 d hlacks hstop =>
    rw [climb, h d (.head _), hlacks]
    exact if_pos hstop
  | case4 d hlacks hstop hparent =>
    rw [climb, h d (.head _), hlacks]
    exact (if_neg hstop).trans (if_pos hparent)
  | case5 d hlacks hstop hparent above ih =>
    rw [climb, h d (.head _), hlacks]
    dsimp only
    rw [if_neg hstop, if_neg hparent, ih fun q hq => h q (.tail _ hq)]

/-- What is found in the directories of a chain that are searched. -/
def found? (files : Files) (name : String) (stop? : Option Path) (d : Path) :
    Except Fault (Option Path) :=
  firstExisting files ((searched stop? d.chain).map (·.join (Path.parse name)))

theorem found?_eq (files : Files) (name : String) (stop? : Option Path) (d : Path) :
    found? files name stop? d =
      match files.exists? (d.join (Path.parse name)).toString with
      | .error e => .error e
      | .ok true => .ok (some (d.join (Path.parse name)))
      | .ok false =>
        if stop? = some d then .ok none
        else if d.parent = d then .ok none
        else found? files name stop? d.parent := by
  have hcons : ∀ ds, firstExisting files
      ((searched stop? (d :: ds)).map (·.join (Path.parse name))) =
        match files.exists? (d.join (Path.parse name)).toString with
        | .error e => .error e
        | .ok true => .ok (some (d.join (Path.parse name)))
        | .ok false =>
          if stop? = some d then .ok none
          else firstExisting files ((searched stop? ds).map (·.join (Path.parse name))) := by
    intro ds
    rw [searched]
    by_cases hstop : stop? = some d
    · rw [if_pos hstop, if_pos hstop, List.map_singleton, firstExisting_cons]
      rcases files.exists? _ with e | _ | _ <;> rfl
    · rw [if_neg hstop, if_neg hstop, List.map_cons, firstExisting_cons]
      rcases files.exists? _ with e | _ | _ <;> rfl
  rw [found?, Path.chain_eq]
  by_cases hparent : d.parent = d
  · rw [if_pos (Path.parent_eq_self_iff.1 hparent), hcons, if_pos hparent]
    rfl
  · rw [if_neg fun h => hparent (Path.parent_of_names_nil h), hcons, if_neg hparent]
    rfl

/-- The loop finds what is found in the directories of the chain that are searched. -/
theorem climb_snd (files : Files) (name start : String) (stop : Option String) :
    (climb files name (limit stop) (Path.parse start)).2 = findUp files name start stop := by
  show _ = found? files name (limit stop) (Path.parse start)
  fun_induction climb files name (limit stop) (Path.parse start) with
  | case1 d e herror => rw [found?_eq, herror]
  | case2 d hhas => rw [found?_eq, hhas]
  | case3 d hlacks hstop =>
    rw [found?_eq, hlacks]
    exact (if_pos hstop).symm
  | case4 d hlacks hstop hparent =>
    rw [found?_eq, hlacks]
    exact ((if_neg hstop).trans (if_pos hparent)).symm
  | case5 d hlacks hstop hparent above ih =>
    rw [found?_eq, hlacks]
    exact ih.trans ((if_neg hstop).trans (if_neg hparent)).symm

/-! ## The nearest directory -/

/-- Counted from a directory, a parent before which no parent has the name, or may have it without the
system saying so, and at none of which the search is told to stop. -/
structure Unseen (files : Files) (name : String) (stop? : Option Path) (d : Path) (n : Nat) :
    Prop where
  lacks : ∀ m < n, ¬ Has files name (Path.parent^[m] d)
  told : ∀ m < n, ¬ Refuses files name (Path.parent^[m] d)
  unstopped : ∀ m < n, stop? ≠ some (Path.parent^[m] d)

namespace Climbed

variable {r : List Path × Except Fault (Option Path)}

theorem unseen (h : Climbed files name stop? d n r) : Unseen files name stop? d n where
  lacks m hm := (lacks_iff.1 (h.lacks m hm)).1
  told m hm := (lacks_iff.1 (h.lacks m hm)).2
  unstopped := h.unstopped

/-- The first parent that does not lack the name is the one at which the loop ends. -/
theorem eq_of_not_lacks {m : Nat} (h : Climbed files name stop? d n r)
    (hm : ¬ Lacks files name (Path.parent^[m] d)) (hunseen : Unseen files name stop? d m) :
    m = n := by
  rcases Nat.lt_trichotomy m n with hlt | heq | hlt
  · exact absurd (h.lacks m hlt) hm
  · exact heq
  · have hn := lacks_iff.2 ⟨hunseen.lacks n hlt, hunseen.told n hlt⟩
    obtain ⟨-, hend | hend⟩ := h.nothing hn
    · exact absurd hend (hunseen.unstopped n hlt)
    · rw [Path.iterate_parent_of_fixed hend (Nat.le_of_lt hlt)] at hm
      exact absurd hn hm

theorem eq_some_iff (h : Climbed files name stop? d n r) :
    r.2 = .ok (some p) ↔ ∃ n, Has files name (Path.parent^[n] d) ∧ Unseen files name stop? d n ∧
      p = (Path.parent^[n] d).join (Path.parse name) := by
  constructor
  · intro hr
    have hhas : Has files name (Path.parent^[n] d) := by
      obtain hhas | hlacks | hrefuses := has_or_lacks_or_refuses files name (Path.parent^[n] d)
      · exact hhas
      · cases hr.symm.trans (h.nothing hlacks).1
      · cases hr.symm.trans (h.refused hrefuses)
    exact ⟨n, hhas, h.unseen, Option.some.inj (Except.ok.inj (hr.symm.trans (h.found hhas)))⟩
  · rintro ⟨m, hhas, hunseen, rfl⟩
    obtain rfl := h.eq_of_not_lacks hhas.not_lacks hunseen
    exact h.found hhas

theorem eq_error_iff (h : Climbed files name stop? d n r) {e : Fault} :
    r.2 = .error e ↔ e = .pathRefused ∧
      ∃ n, Refuses files name (Path.parent^[n] d) ∧ Unseen files name stop? d n := by
  constructor
  · intro hr
    obtain hhas | hlacks | hrefuses := has_or_lacks_or_refuses files name (Path.parent^[n] d)
    · cases hr.symm.trans (h.found hhas)
    · cases hr.symm.trans (h.nothing hlacks).1
    · exact ⟨Except.error.inj (hr.symm.trans (h.refused hrefuses)), n, hrefuses, h.unseen⟩
  · rintro ⟨rfl, m, hrefuses, hunseen⟩
    obtain rfl := h.eq_of_not_lacks hrefuses.not_lacks hunseen
    exact h.refused hrefuses

/-- The loop finds nothing exactly if all that a search could find comes after a stop. -/
theorem eq_none_iff (h : Climbed files name stop? d n r) :
    r.2 = .ok none ↔ ∀ m, Has files name (Path.parent^[m] d) ∨ Refuses files name (Path.parent^[m] d) →
      ∃ k < m, stop? = some (Path.parent^[k] d) := by
  constructor
  · intro hr m hm
    have hlacks : Lacks files name (Path.parent^[n] d) := by
      obtain hhas | hlacks | hrefuses := has_or_lacks_or_refuses files name (Path.parent^[n] d)
      · cases hr.symm.trans (h.found hhas)
      · exact hlacks
      · cases hr.symm.trans (h.refused hrefuses)
    have hm' : ¬ Lacks files name (Path.parent^[m] d) :=
      hm.elim Has.not_lacks Refuses.not_lacks
    obtain ⟨-, hend | hend⟩ := h.nothing hlacks
    · refine ⟨n, Nat.lt_of_not_le fun hle => hm' ?_, hend⟩
      obtain hlt | rfl := Nat.lt_or_eq_of_le hle
      · exact h.lacks m hlt
      · exact hlacks
    · refine absurd ?_ hm'
      rcases Nat.lt_or_ge m n with hlt | hge
      · exact h.lacks m hlt
      · rwa [Path.iterate_parent_of_fixed hend hge]
  · intro hstops
    obtain hhas | hlacks | hrefuses := has_or_lacks_or_refuses files name (Path.parent^[n] d)
    · obtain ⟨k, hk, hstop⟩ := hstops n (.inl hhas)
      exact absurd hstop (h.unstopped k hk)
    · exact (h.nothing hlacks).1
    · obtain ⟨k, hk, hstop⟩ := hstops n (.inr hrefuses)
      exact absurd hstop (h.unstopped k hk)

/-! ## Where the loop looks -/

theorem mem_looked (h : Climbed files name stop? d n r) {q : Path} :
    q ∈ r.1 ↔ ∃ m ≤ n, q = Path.parent^[m] d := by
  simp only [h.looked, List.mem_map, List.mem_range, Nat.lt_succ_iff, eq_comm]

theorem length_looked_le (h : Climbed files name stop? d n r) :
    r.1.length ≤ d.names.length + 1 := by
  rw [h.looked, List.length_map, List.length_range]
  by_contra hlong
  exact h.parented d.names.length (by omega) (Path.parent_iterate_length (Nat.le_refl _))

/-- The loop does not go above a directory to stop at that it comes through. -/
theorem contains_of_mem_looked (h : Climbed files name (some s) d n r) (hs : s.contains d = true)
    {q : Path} (hq : q ∈ r.1) : s.contains q = true := by
  obtain ⟨m, hm, rfl⟩ := h.mem_looked.1 hq
  rcases Nat.lt_or_ge (d.names.length - s.names.length) m with hlt | hle
  · exact absurd (congrArg some (Path.iterate_parent_of_contains hs).symm)
      (h.unstopped _ (Nat.lt_of_lt_of_le hlt hm))
  · rw [← Path.iterate_parent_of_contains hs]
    exact Path.contains_iterate_parent hle

/-- If all directories below lack the name, the loop looks in the directory to stop at. -/
theorem stop_mem_looked (h : Climbed files name (some s) d n r) (hs : s.contains d = true)
    (hbelow : ∀ q : Path, q.contains d = true → s.contains q = true → q ≠ s →
      Lacks files name q) : s ∈ r.1 := by
  have hk := Path.iterate_parent_of_contains hs
  rw [h.mem_looked]
  refine ⟨d.names.length - s.names.length, ?_, hk.symm⟩
  by_contra hlt
  rw [Nat.not_le] at hlt
  -- the loop ended below, and there it had no reason to
  have hcontains := Path.contains_iterate_parent (p := d) (Nat.le_of_lt hlt)
  have hne : Path.parent^[n] d ≠ s := by
    intro he
    have hlength := congrArg (fun q : Path => q.names.length) he
    simp only [Path.iterate_parent, List.length_take] at hlength
    omega
  have hlacks := hbelow _ (Path.contains_iterate_parent (p := d) (Nat.zero_le n)) (hk ▸ hcontains) hne
  obtain ⟨-, hstop | hparent⟩ := h.nothing hlacks
  · exact hne (Option.some.inj hstop).symm
  · exact hne ((Path.iterate_parent_of_fixed hparent (Nat.le_of_lt hlt)).symm.trans hk)

end Climbed

/-- What a search upwards finds and where it looks. -/
structure FindsUp (files : Files) (name start : String) (stop : Option String) : Prop where
  /-- From parent to parent one comes to a path that is its own parent. -/
  rooted : ∃ n, (Path.parent^[n] (Path.parse start)).parent = Path.parent^[n] (Path.parse start)
  /-- The search is a loop that ends, after at most one directory more than the start has names. -/
  loops : (climb files name (limit stop) (Path.parse start)).2 = findUp files name start stop ∧
    (climb files name (limit stop) (Path.parse start)).1.length ≤ (Path.parse start).names.length + 1
  /-- What there is in other directories than those in which it looks makes no difference. -/
  looks : ∀ files' : Files, (∀ d ∈ (climb files name (limit stop) (Path.parse start)).1,
    files'.exists? (d.join (Path.parse name)).toString =
      files.exists? (d.join (Path.parse name)).toString) →
    findUp files' name start stop = findUp files name start stop
  /-- It finds the name in the nearest directory that has it and comes after no stop. -/
  found : ∀ p, findUp files name start stop = .ok (some p) ↔
    ∃ n, Has files name (Path.parent^[n] (Path.parse start)) ∧
      Unseen files name (limit stop) (Path.parse start) n ∧
      p = (Path.parent^[n] (Path.parse start)).join (Path.parse name)
  /-- It finds nothing if every directory that has the name comes after a stop. -/
  absent : findUp files name start stop = .ok none ↔
    ∀ n, Has files name (Path.parent^[n] (Path.parse start)) ∨
        Refuses files name (Path.parent^[n] (Path.parse start)) →
      ∃ m < n, limit stop = some (Path.parent^[m] (Path.parse start))
  /-- It ends in no other way, unless the system refuses to say whether the directory has the name to
  which it has come. -/
  refused : ∀ e, findUp files name start stop = .error e ↔ e = .pathRefused ∧
    ∃ n, Refuses files name (Path.parent^[n] (Path.parse start)) ∧
      Unseen files name (limit stop) (Path.parse start) n
  /-- Where the system says of every path whether it leads to something, the search comes to an end. -/
  answers : (∀ path, files.refused path = false) → ∃ p?, findUp files name start stop = .ok p?
  /-- It looks in no directory above one to stop at that is the start or contains it. -/
  stops : ∀ s, limit stop = some s → s.contains (Path.parse start) = true →
    ∀ d ∈ (climb files name (limit stop) (Path.parse start)).1, s.contains d = true
  /-- In that one it does look, if those below lack the name. -/
  reaches : ∀ s, limit stop = some s → s.contains (Path.parse start) = true →
    (∀ d : Path, d.contains (Path.parse start) = true → s.contains d = true → d ≠ s →
      Lacks files name d) →
    s ∈ (climb files name (limit stop) (Path.parse start)).1

end Workspace

end FormatServer
