import FormatServer.Proofs.Session.Trust

/-!
# The folders of a session

Folders change by what the client says of them alone (`step_folders`). When some are added and some
removed, those that stay keep their order, the new ones follow, and a folder that is both is replaced
(`update_updated`). A client that names no URI twice at once never makes a session hold one twice
(`run_distinct`).
-/

set_option autoImplicit false

namespace FormatServer

namespace Folder

variable {folders added removed : List Folder}

def uris (folders : List Folder) : List String := folders.map Folder.uri

/-- No two of the folders have the same URI. -/
def DistinctUris (folders : List Folder) : Prop := (uris folders).Nodup

/-- What becomes of folders when some are added and some removed. -/
structure Updated (folders added removed folders' : List Folder) : Prop where
  /-- Those that are not removed stay as and where they are. The added ones follow that are not
  among them. -/
  order : ∃ kept new, folders' = kept ++ new ∧
    kept = folders.filter (fun f => f.uri ∉ uris removed) ∧
    new = added.filter (fun f => f.uri ∉ uris kept)
  /-- What is added is there. -/
  present : ∀ uri ∈ uris added, uri ∈ uris folders'
  /-- What is removed and not added is not there. -/
  absent : ∀ uri ∈ uris removed, uri ∉ uris added → uri ∉ uris folders'
  /-- Of what is removed the folders that are added are there, and no others. -/
  replaced : ∀ f, f.uri ∈ uris removed → (f ∈ folders' ↔ f ∈ added)

theorem not_contains_uris (uri : String) (folders : List Folder) :
    (!(folders.map Folder.uri).contains uri) = decide (uri ∉ uris folders) := by
  rw [List.contains_eq_mem, decide_not]
  rfl

theorem update_eq (folders added removed : List Folder) :
    let kept := folders.filter fun f => f.uri ∉ uris removed
    update folders added removed = kept ++ added.filter fun f => f.uri ∉ uris kept := by
  simp only [update, not_contains_uris]

theorem mem_update {f : Folder} : f ∈ update folders added removed ↔
    f ∈ folders ∧ f.uri ∉ uris removed ∨
      f ∈ added ∧ f.uri ∉ uris (folders.filter fun f => f.uri ∉ uris removed) := by
  rw [update_eq]
  simp only [List.mem_append, List.mem_filter, decide_eq_true_eq]

theorem mem_uris {uri : String} : uri ∈ uris folders ↔ ∃ f ∈ folders, f.uri = uri := List.mem_map

theorem not_mem_uris_kept {uri : String} (h : uri ∈ uris removed) :
    uri ∉ uris (folders.filter fun f => f.uri ∉ uris removed) := by
  rw [mem_uris]
  rintro ⟨f, hf, rfl⟩
  exact of_decide_eq_true (List.mem_filter.1 hf).2 h

theorem update_updated (folders added removed : List Folder) :
    Updated folders added removed (update folders added removed) where
  order := ⟨_, _, update_eq folders added removed, rfl, rfl⟩
  present uri huri := by
    obtain ⟨f, hf, rfl⟩ := mem_uris.1 huri
    by_cases hkept : f.uri ∈ uris (folders.filter fun f => f.uri ∉ uris removed)
    · obtain ⟨f', hf', hsame⟩ := mem_uris.1 hkept
      have hf' := List.mem_filter.1 hf'
      exact mem_uris.2 ⟨f', mem_update.2 (.inl ⟨hf'.1, of_decide_eq_true hf'.2⟩), hsame⟩
    · exact mem_uris.2 ⟨f, mem_update.2 (.inr ⟨hf, hkept⟩), rfl⟩
  absent uri hremoved hadded huri := by
    obtain ⟨f, hf, rfl⟩ := mem_uris.1 huri
    obtain ⟨-, hstays⟩ | ⟨hf, -⟩ := mem_update.1 hf
    · exact hstays hremoved
    · exact hadded (mem_uris.2 ⟨f, hf, rfl⟩)
  replaced f hremoved := by
    rw [mem_update, or_iff_right fun h => h.2 hremoved]
    exact and_iff_left (not_mem_uris_kept hremoved)

theorem distinct_filter (h : DistinctUris folders) (p : Folder → Bool) :
    DistinctUris (folders.filter p) :=
  h.sublist (List.filter_sublist.map Folder.uri)

theorem update_distinct (h : DistinctUris folders) (hadded : DistinctUris added)
    (removed : List Folder) : DistinctUris (update folders added removed) := by
  rw [update_eq, DistinctUris, uris, List.map_append, List.nodup_append']
  refine ⟨distinct_filter h _, distinct_filter hadded _, fun uri hkept hnew => ?_⟩
  obtain ⟨f, hf, rfl⟩ := List.mem_map.1 hnew
  exact of_decide_eq_true (List.mem_filter.1 hf).2 hkept

/-- A folder that is removed and added again is replaced, and comes last. -/
example : update [⟨"file:///a", "a"⟩, ⟨"file:///b", "b"⟩] [⟨"file:///b", "x"⟩, ⟨"file:///a", "y"⟩]
    [⟨"file:///a", "a"⟩] = [⟨"file:///b", "b"⟩, ⟨"file:///a", "y"⟩] := by
  decide

end Folder

/-- The lists of folders that the client hands over in a step. -/
def Step.handsOver (st : Step) : List (List Folder) :=
  match st.core with
  | .connect _ folders _ => [folders]
  | .setFolders folders => [folders]
  | .changeFolders added removed => [added, removed]
  | _ => []

namespace Session

open Folder

/-- What becomes of the folders of a session in a step. -/
structure ChangesFolders (s : Session) (st : Step) : Prop where
  connects : ∀ options folders configuration, st.core = .connect options folders configuration →
    (step s st).1.world.folders = folders
  sets : ∀ folders, st.core = .setFolders folders → (step s st).1.world.folders = folders
  updates : ∀ added removed, st.core = .changeFolders added removed →
    Updated s.world.folders added removed (step s st).1.world.folders
  /-- A step that hands over no folders leaves them alone. -/
  stays : st.handsOver = [] → (step s st).1.world.folders = s.world.folders

/-- The folders of a session after some steps, and how they go on. -/
structure FollowsFolders (s₀ : Session) (sts : List Step) : Prop where
  changes : ∀ st, (run s₀ sts).1.ChangesFolders st
  /-- No URI is there twice if the client never handed over one twice. -/
  distinct : (∀ st ∈ sts, ∀ folders ∈ st.handsOver, DistinctUris folders) →
    DistinctUris (run s₀ sts).1.world.folders

theorem step_folders (s : Session) (st : Step) :
    (step s st).1.world.folders = (st.core.sets s.world).folders :=
  (congrArg World.folders (step_given s st) :
    (step s st).1.world.given.folders = (st.core.sets s.world).given.folders)

theorem step_changesFolders (s : Session) (st : Step) : s.ChangesFolders st where
  connects options folders configuration hcore := by rw [step_folders, hcore]; rfl
  sets folders hcore := by rw [step_folders, hcore]; rfl
  updates added removed hcore := by
    rw [step_folders, hcore]
    exact update_updated s.world.folders added removed
  stays h := by
    rw [step_folders]
    unfold Step.handsOver at h
    cases hcore : st.core with
    | connect _ _ _ => rw [hcore] at h; cases h
    | setFolders _ => rw [hcore] at h; cases h
    | changeFolders _ _ => rw [hcore] at h; cases h
    | _ => rfl

theorem step_distinct {s : Session} {st : Step}
    (hst : ∀ folders ∈ st.handsOver, DistinctUris folders) (hs : DistinctUris s.world.folders) :
    DistinctUris (step s st).1.world.folders := by
  have hchanges := step_folders s st
  unfold Step.handsOver at hst
  rw [hchanges]
  cases hcore : st.core with
  | connect options folders configuration =>
    rw [hcore] at hst
    exact hst folders (.head _)
  | setFolders folders =>
    rw [hcore] at hst
    exact hst folders (.head _)
  | changeFolders added removed =>
    rw [hcore] at hst
    exact update_distinct hs (hst added (.head _)) removed
  | _ => exact hs

theorem run_distinct {s : Session} {sts : List Step} (hs : DistinctUris s.world.folders)
    (hsts : ∀ st ∈ sts, ∀ folders ∈ st.handsOver, DistinctUris folders) :
    DistinctUris (run s sts).1.world.folders :=
  run_invariant (P := fun s => DistinctUris s.world.folders) (fun _ _ => step_distinct) hs hsts

/-- Through all steps the folders are those that the client has said. -/
theorem folders_followed (files : Files) (home : String) (client : Client)
    (reply : List Command → Command → Reply) (config : ServerConfig) (logger : Logger)
    (limits : Limits) (sts : List Step) :
    FollowsFolders (fresh files home client reply config logger limits) sts where
  changes := step_changesFolders _
  distinct := run_distinct List.nodup_nil

end Session

end FormatServer
