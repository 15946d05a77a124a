import FormatServer.Proofs.Path.Parse

/-!
# What a path leads to

A path leads to the same in two file systems that have the same at every directory on the way
(`walk_agree`). So what lies at a directory or below it does not depend on what there is under names
in the working directory that the directory has nothing to do with (`agreeBelow_of_sameBut`).
-/

set_option autoImplicit false

namespace FormatServer.Files

/-- The system says the same of a path in both, or nothing. -/
structure AgreeAt (files files' : Files) (path : String) : Prop where
  find : files'.find? path = files.find? path
  refused : files'.refused path = files.refused path

/-- A directory and everything below it are the same in both. -/
def AgreeBelow (files files' : Files) (dir : String) : Prop :=
  ∀ names : List String, (∀ n ∈ names, Path.Ordinary n ∧ n ≠ "..") →
    AgreeAt files files' ((Path.parse dir).join ⟨.relative, names⟩).toString

/-- The components lead to one of some names in the working directory, or below it. -/
def inside (files : Files) (names : List String) (key : List String) : Bool :=
  names.any fun n => (files.workingDirectory ++ [n]).isPrefixOf key

/-- The components of the absolute path that a path stands for, as far as `..` is a name like any
other. -/
def place (files : Files) (path : String) : List String :=
  let p := Path.parse path
  if p.anchor = .relative then files.workingDirectory ++ p.names else p.names

/-- The two differ in nothing but what lies at some names in the working directory, or below them. -/
structure SameBut (names : List String) (files files' : Files) : Prop where
  entries : files'.entries.filter (fun e => !files.inside names e.1) =
    files.entries.filter fun e => !files.inside names e.1
  workingDirectory : files'.workingDirectory = files.workingDirectory
  refused : ∀ path, files.inside names (files.place path) = false →
    files'.refused path = files.refused path

/-- An absolute directory without `..` that is neither one of some names in the working directory nor
below one, and has not got the working directory in it. -/
structure Apart (files : Files) (names : List String) (dir : String) : Prop where
  absolute : (Path.parse dir).anchor ≠ .relative
  plain : ".." ∉ (Path.parse dir).names
  outside : files.inside names (Path.parse dir).names = false
  beside : ¬ (Path.parse dir).names <+: files.workingDirectory

variable {files files' : Files} {names : List String}

namespace AgreeAt

variable {path : String} (h : AgreeAt files files' path)
include h

theorem look : files'.look? path = files.look? path := by
  rw [look?, look?, h.find, h.refused]

theorem read : files'.read? path = files.read? path := by
  rw [read?, read?, h.look]

end AgreeAt

/-! ## Names in the working directory -/

theorem inside_iff {key : List String} :
    files.inside names key = true ↔ ∃ n ∈ names, files.workingDirectory ++ [n] <+: key := by
  simp [inside]

theorem inside_of_prefix {key key' : List String} (h : key <+: key')
    (hkey : files.inside names key = true) : files.inside names key' = true := by
  obtain ⟨n, hn, hprefix⟩ := inside_iff.1 hkey
  exact inside_iff.2 ⟨n, hn, hprefix.trans h⟩

/-- What lies on the way to something inside is inside itself, or not deeper than the working
directory. -/
theorem inside_or_prefix {key key' : List String} (h : key <+: key')
    (hkey' : files.inside names key' = true) :
    files.inside names key = true ∨ key <+: files.workingDirectory := by
  obtain ⟨n, hn, hprefix⟩ := inside_iff.1 hkey'
  obtain hkey | hkey := List.prefix_or_prefix_of_prefix h hprefix
  · obtain rfl | hkey := List.prefix_concat_iff.1 hkey
    · exact .inl (inside_iff.2 ⟨n, hn, List.prefix_rfl⟩)
    · exact .inr hkey
  · exact .inl (inside_iff.2 ⟨n, hn, hkey⟩)

theorem inside_sameBut (h : SameBut names files files') (key : List String) :
    files'.inside names key = files.inside names key := by
  rw [inside, inside, h.workingDirectory]

theorem SameBut.trans {files'' : Files} (h : SameBut names files files')
    (h' : SameBut names files' files'') : SameBut names files files'' where
  entries := by
    have hentries := h'.entries
    simp only [inside_sameBut h] at hentries
    exact hentries.trans h.entries
  workingDirectory := h'.workingDirectory.trans h.workingDirectory
  refused path hpath := by
    refine (h'.refused path ?_).trans (h.refused path hpath)
    rwa [inside_sameBut h, place, h.workingDirectory]

theorem lookup_filter {p : List String × Node → Bool} {key : List String}
    (hp : ∀ n, p (key, n) = true) (entries : List (List String × Node)) :
    (entries.filter p).lookup key = entries.lookup key := by
  induction entries with
  | nil => rfl
  | cons e entries ih =>
    obtain ⟨k, n⟩ := e
    by_cases hk : key = k
    · subst hk
      rw [List.filter_cons_of_pos (hp n), List.lookup_cons_self, List.lookup_cons_self]
    · have hskip : List.lookup key ((k, n) :: entries) = entries.lookup key := by
        rw [List.lookup_cons, beq_false_of_ne hk]
      rw [hskip, ← ih, List.filter_cons]
      split
      · rw [List.lookup_cons, beq_false_of_ne hk]
      · rfl

theorem node?_sameBut (h : SameBut names files files') {key : List String}
    (hkey : files.inside names key = false) : files'.node? key = files.node? key := by
  have hlookup (g : Files) : (g.entries.filter fun e => !files.inside names e.1).lookup key =
      g.entries.lookup key := lookup_filter (fun _ => by simp [hkey]) _
  have hany : key <+: files.workingDirectory ∨ ∀ g : Files,
      (g.entries.filter fun e => !files.inside names e.1).any (key.isPrefixOf ·.1) =
        g.entries.any (key.isPrefixOf ·.1) := by
    refine or_iff_not_imp_left.2 fun hdeep g => ?_
    rw [List.any_filter]
    refine congrArg g.entries.any (funext fun e => ?_)
    cases hprefix : key.isPrefixOf e.1 with
    | false => rw [Bool.and_false]
    | true =>
      have hbelow : files.inside names e.1 = true → _ :=
        inside_or_prefix (List.isPrefixOf_iff_prefix.1 hprefix)
      cases hinside : files.inside names e.1 with
      | false => rfl
      | true =>
        obtain hself | hshallow := hbelow hinside
        · rw [hkey] at hself
          cases hself
        · exact absurd hshallow hdeep
  unfold node?
  rw [← hlookup files', ← hlookup files, h.entries, h.workingDirectory]
  obtain hshallow | hany := hany
  · rw [List.isPrefixOf_iff_prefix.2 hshallow, Bool.or_true, Bool.true_or, Bool.true_or]
  · rw [← hany files', ← hany files, h.entries]

/-! ## Walking along a path -/

/-- Without `..` a walk leads the same way in both, as long as both have the same on the way. -/
theorem walk_agree {parts : List String} (hup : ".." ∉ parts) {start : List String}
    (h : ∀ key, key <+: start ++ parts.filter (fun n => n ≠ "" ∧ n ≠ ".") →
      files'.node? key = files.node? key) :
    (parts.foldlM (files'.step · ·) start).bind files'.node? =
      (parts.foldlM (files.step · ·) start).bind files.node? := by
  induction parts generalizing start with
  | nil => exact h start (List.prefix_append _ _)
  | cons n parts ih =>
    obtain ⟨hn, hparts⟩ := not_or.1 (mt List.mem_cons.2 hup)
    have hstart : files'.node? start = files.node? start := h start (List.prefix_append _ _)
    rw [List.foldlM_cons, List.foldlM_cons, step, step, hstart]
    split
    · rfl
    split
    · next hstay =>
      refine ih hparts fun key hkey => h key ?_
      rwa [List.filter_cons_of_neg (by simpa [or_iff_not_imp_left] using hstay)]
    · next hgo =>
      rw [if_neg (Ne.symm hn)]
      refine ih hparts fun key hkey => h key ?_
      rwa [List.filter_cons_of_pos (by simpa using not_or.1 hgo), List.append_cons]

theorem find?_agree {p : Path} (hnames : ∀ n ∈ p.names, Path.Ordinary n ∧ n ≠ "..")
    (hanchor : p.anchor ≠ .relative)
    (h : ∀ key, key <+: p.names → files'.node? key = files.node? key) :
    files'.find? p.toString = files.find? p.toString := by
  have hread : Path.namesOf p.toString.toList = p.names :=
    congrArg Path.names (Path.parse_toString fun n hn => (hnames n hn).1)
  have hroot : p.toString.toList.head? = some '/' := by
    unfold Path.toString
    cases hp : p.anchor with
    | relative => exact absurd hp hanchor
    | root => simp
    | doubleRoot => simp
  unfold find?
  dsimp only
  rw [if_pos hroot]
  split
  · rfl
  · refine walk_agree (fun hup => ?_) fun key hkey => h key ?_
    · have hmem : ".." ∈ Path.namesOf p.toString.toList :=
        List.mem_filter.2 ⟨hup, by decide⟩
      rw [hread] at hmem
      exact (hnames _ hmem).2 rfl
    · rwa [List.nil_append, show List.filter _ _ = _ from hread] at hkey

/-- What is apart from the names stays the same whatever becomes of them. -/
theorem agreeBelow_of_sameBut (h : SameBut names files files') {dir : String}
    (hdir : Apart files names dir) : AgreeBelow files files' dir := by
  intro rest hrest
  have outside : ∀ key, key <+: (Path.parse dir).names ++ rest → files.inside names key = false := by
    intro key hkey
    rw [Bool.eq_false_iff]
    intro hinside
    have hdeep : files.inside names ((Path.parse dir).names ++ rest) = true :=
      inside_of_prefix hkey hinside
    obtain hin | hshallow := inside_or_prefix (List.prefix_append _ _) hdeep
    · rw [hdir.outside] at hin
      cases hin
    · exact hdir.beside hshallow
  have hordinary : ∀ n ∈ (Path.parse dir).names ++ rest, Path.Ordinary n ∧ n ≠ ".." :=
    List.forall_mem_append.2 ⟨fun n hn =>
      ⟨Path.ordinary_of_mem_parse hn, fun hup => hdir.plain (hup ▸ hn)⟩, hrest⟩
  refine ⟨find?_agree hordinary hdir.absolute fun key hkey => node?_sameBut h (outside key hkey),
    h.refused _ ?_⟩
  have hread : Path.parse ((Path.parse dir).join ⟨.relative, rest⟩).toString =
      (Path.parse dir).join ⟨.relative, rest⟩ := Path.parse_toString fun n hn => (hordinary n hn).1
  have hplace : files.place ((Path.parse dir).join ⟨.relative, rest⟩).toString =
      (Path.parse dir).names ++ rest := by
    unfold place
    rw [hread]
    exact if_neg hdir.absolute
  rw [hplace]
  exact outside _ List.prefix_rfl

/-! ## Writing and removing -/

theorem write_sameBut {path : String} (h : files.inside names (components path) = true)
    (n : Node) : SameBut names files (files.write path n) := by
  refine ⟨?_, rfl, fun _ _ => rfl⟩
  unfold write
  dsimp only
  rw [List.filter_cons_of_neg (by simp [h]), List.filter_filter]
  refine List.filter_congr fun e _ => ?_
  by_cases he : e.1 = components path
  · rw [he, h]
    rfl
  · simp [he]

end FormatServer.Files
