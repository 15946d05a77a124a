import FormatServer.Files

/-!
# Searching upwards

The nearest directory, from a start on up to the root or to a directory to stop at, in which a name
exists.
-/

set_option autoImplicit false

namespace FormatServer.Workspace

/-- The directories of a chain that are searched: up to the one to stop at, which is searched
too. -/
def searched (stop : Option Path) : List Path → List Path
  | [] => []
  | d :: ds => if stop = some d then [d] else d :: searched stop ds

/-- The first of some paths that leads to something. -/
def firstExisting (files : Files) : List Path → Except Fault (Option Path)
  | [] => return none
  | p :: ps => do
    if ← files.exists? p.toString then return some p else firstExisting files ps

/-- The name in the nearest directory in which it exists; an empty stop is none. -/
def findUp (files : Files) (name start : String) (stop : Option String) :
    Except Fault (Option Path) :=
  let stop := (stop.filter (· ≠ "")).map Path.parse
  firstExisting files
    ((searched stop (Path.parse start).chain).map (·.join (Path.parse name)))

/-! ## Laws -/

theorem firstExisting_cons (files : Files) (p : Path) (ps : List Path) :
    firstExisting files (p :: ps) =
      match files.exists? p.toString with
      | .ok true => .ok (some p)
      | .ok false => firstExisting files ps
      | .error e => .error e := by
  rw [firstExisting]
  rcases files.exists? p.toString with e | _ | _ <;> rfl

/-- What is found leads to something, and what comes before it does not. -/
theorem firstExisting_eq_some {files : Files} {p : Path} {ps : List Path} :
    firstExisting files ps = .ok (some p) ↔ ∃ before after, ps = before ++ p :: after ∧
      (∀ q ∈ before, files.exists? q.toString = .ok false) ∧
        files.exists? p.toString = .ok true := by
  induction ps with
  | nil => exact ⟨nofun, fun ⟨before, _, h, _⟩ => absurd h (by simp)⟩
  | cons q ps ih =>
    rw [firstExisting_cons]
    constructor
    · intro h
      split at h
      · next hq =>
        cases h
        exact ⟨[], ps, rfl, nofun, hq⟩
      · next hq =>
        obtain ⟨before, after, rfl, hbefore, hp⟩ := ih.1 h
        exact ⟨q :: before, after, rfl, List.forall_mem_cons.2 ⟨hq, hbefore⟩, hp⟩
      · cases h
    · rintro ⟨before, after, hsplit, hbefore, hp⟩
      cases before with
      | nil =>
        cases hsplit
        rw [hp]
      | cons r before =>
        cases hsplit
        obtain ⟨hq, hbefore⟩ := List.forall_mem_cons.1 hbefore
        rw [hq]
        exact ih.2 ⟨before, after, rfl, hbefore, hp⟩

theorem firstExisting_eq_none {files : Files} {ps : List Path} :
    firstExisting files ps = .ok none ↔ ∀ q ∈ ps, files.exists? q.toString = .ok false := by
  induction ps with
  | nil => exact ⟨fun _ => nofun, fun _ => rfl⟩
  | cons q ps ih =>
    rw [firstExisting_cons, List.forall_mem_cons, ← ih]
    rcases files.exists? q.toString with e | _ | _ <;> simp

theorem firstExisting_eq_error {files : Files} {e : Fault} {ps : List Path} :
    firstExisting files ps = .error e ↔ ∃ before p after, ps = before ++ p :: after ∧
      (∀ q ∈ before, files.exists? q.toString = .ok false) ∧
        files.exists? p.toString = .error e := by
  induction ps with
  | nil => exact ⟨nofun, fun ⟨before, _, _, h, _⟩ => absurd h (by simp)⟩
  | cons q ps ih =>
    rw [firstExisting_cons]
    constructor
    · intro h
      split at h
      · cases h
      · next hq =>
        obtain ⟨before, p, after, rfl, hbefore, hp⟩ := ih.1 h
        exact ⟨q :: before, p, after, rfl, List.forall_mem_cons.2 ⟨hq, hbefore⟩, hp⟩
      · next hq =>
        cases h
        exact ⟨[], q, ps, rfl, nofun, hq⟩
    · rintro ⟨before, p, after, hsplit, hbefore, hp⟩
      cases before with
      | nil =>
        cases hsplit
        rw [hp]
      | cons r before =>
        cases hsplit
        obtain ⟨hq, hbefore⟩ := List.forall_mem_cons.1 hbefore
        rw [hq]
        exact ih.2 ⟨before, p, after, rfl, hbefore, hp⟩

end FormatServer.Workspace
