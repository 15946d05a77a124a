import FormatServer.Text.Split

/-!
# Paths

A path is read component by component: repeated slashes and `.` collapse, `..` is a name like any
other, and a trailing slash is dropped. Exactly two leading slashes are a root of their own.
-/

set_option autoImplicit false

namespace FormatServer

/-- Where a path starts. -/
inductive Anchor where
  | relative
  | root
  | doubleRoot
  deriving DecidableEq, Repr

/-- A path with its components. -/
structure Path where
  anchor : Anchor
  names : List String
  deriving DecidableEq, Repr

namespace Path

/-- The components that a text names. -/
def namesOf (cs : List Char) : List String :=
  ((Text.splitAtEach '/' cs).map String.ofList).filter fun n => n ≠ "" ∧ n ≠ "."

/-- The anchor for a number of leading slashes. -/
def anchorOf : Nat → Anchor
  | 0 => .relative
  | 2 => .doubleRoot
  | _ => .root

/-- The path that a text spells. -/
def parse (s : String) : Path :=
  ⟨anchorOf (s.toList.takeWhile (· = '/')).length, namesOf s.toList⟩

/-- The text of a path; the empty relative path is `.`. -/
protected def toString (p : Path) : String :=
  let body := "/".intercalate p.names
  match p.anchor with
  | .relative => if p.names.isEmpty then "." else body
  | .root => "/" ++ body
  | .doubleRoot => "//" ++ body

/-- A path below another one; one with a root of its own replaces it. -/
def join (p q : Path) : Path :=
  match q.anchor with
  | .relative => ⟨p.anchor, p.names ++ q.names⟩
  | _ => q

/-- The path without its last component. -/
def parent (p : Path) : Path := ⟨p.anchor, p.names.dropLast⟩

/-- The path itself or one of its ancestors, component by component. -/
def contains (root target : Path) : Bool :=
  root.anchor = target.anchor && root.names.isPrefixOf target.names

/-- Number of parts, the root counted as one. -/
def depth (p : Path) : Nat :=
  p.names.length + (if p.anchor = .relative then 0 else 1)

/-- The tails of a list, itself first. -/
def tailsOf {α : Type} : List α → List (List α)
  | [] => [[]]
  | a :: as => (a :: as) :: tailsOf as

/-- The path, its parent, and so on up to the path that is its own parent. -/
def chain (p : Path) : List Path :=
  (tailsOf p.names.reverse).map fun names => ⟨p.anchor, names.reverse⟩

/-! ## Laws -/

theorem parent_of_names_nil {p : Path} (h : p.names = []) : p.parent = p := by
  cases p; simp_all [parent]

theorem contains_iff {root target : Path} :
    root.contains target = true ↔ root.anchor = target.anchor ∧ root.names <+: target.names := by
  simp [contains]

theorem chain_eq (p : Path) :
    p.chain = if p.names = [] then [p] else p :: p.parent.chain := by
  obtain ⟨a, ns⟩ := p
  rcases List.eq_nil_or_concat ns with rfl | ⟨l, n, rfl⟩
  · simp [chain, tailsOf]
  · simp [chain, tailsOf, parent, List.concat_eq_append]

end Path

end FormatServer
