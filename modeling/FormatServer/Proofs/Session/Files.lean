import FormatServer.Proofs.Session.Shared
import FormatServer.Proofs.Uri.File

/-!
# One entry for each file

However a client spells the URI of a file, the settings of the file are kept under its path. So the
requests for all of these URIs share fetches as those for one of them do (`shares_of_sharesFor`), and
a lookup of the formatter by path has no other settings fetched (`file_settings_shared`).
-/

set_option autoImplicit false

namespace FormatServer

namespace Session

open Uri

/-- The request of the step needs the settings of a URI, and this is what it shares. -/
def SharesFor (s : Session) (st : Step) (uri : String) (share : Except Failure Nat) : Prop :=
  ∃ need, s.need? st = some need ∧ need.uri = uri ∧ s.world.share need = share

/-- How a session keeps the settings of a file. -/
structure KeepsFile (s : Session) (path : String) : Prop where
  /-- All URIs of the file have its path as their key. -/
  key : ∀ uri, Locates uri path → World.settingsKey uri = .ok path
  /-- So has the URI that the path is written as, which is one of them. -/
  written : ∃ uri, ofPath path = .ok uri ∧ Locates uri path ∧ World.settingsKey uri = .ok path
  /-- A request for one of the URIs needs the settings of the path. -/
  needs : ∀ st r uri rest, s.requestOf st = some r → r.announced = .ok (uri, rest) →
    Locates uri path → s.need? st = some ⟨path, uri, rest⟩
  /-- From one eviction of the path to the next, which may be the last step, the requests for any of
  the URIs have one fetch made, which is sent if it can be, and all share it. -/
  period : ∀ sts st, s.world.cache.current? path = none →
    Always (fun s st => ¬ s.Evicts st path) s sts →
    (∃ b, Always (fun s st => ∀ uri b', Locates uri path → s.SharesFor st uri b' → b' = b) s
      (sts ++ [st])) ∧
    (Sometimes (fun s st => ∃ uri b, Locates uri path ∧ s.SharesFor st uri b) s (sts ++ [st]) →
      madeIn path s (sts ++ [st]) = 1) ∧
    sentIn path s (sts ++ [st]) ≤ 1 ∧
    (Sometimes (fun s st => ∃ uri n, Locates uri path ∧ s.SharesFor st uri (.ok n)) s
      (sts ++ [st]) → sentIn path s (sts ++ [st]) = 1)
  /-- As long as the settings of one of the URIs are there, requests for all of them share these, and
  no other fetch is made. -/
  held : ∀ uri key n sts st, Locates uri path → World.settingsKey uri = .ok key →
    s.world.cache.current? key = some n → Always (fun s st => ¬ s.Evicts st path) s sts →
    Always (fun s st => ∀ uri' b, Locates uri' path → s.SharesFor st uri' b → b = .ok n) s
      (sts ++ [st]) ∧ madeIn path s (sts ++ [st]) = 0
  /-- A lookup by path without settings needs those of the file. If those of one of the URIs are there
  it shares them, and sends no fetch. -/
  lookup : ∀ st, st.core = .engine path none → ∃ written,
    s.need? st = some ⟨path, written, .engine path⟩ ∧ Locates written path ∧
    ∀ uri key n, Locates uri path → World.settingsKey uri = .ok key →
      s.world.cache.current? key = some n → s.SharesFor st written (.ok n) ∧
        ((step s st).2.sent.filter fun m => m.fetchedKey?.isSome) = []

variable {s : Session} {path : String}

theorem Always.imp {P Q : Session → Step → Prop} (hPQ : ∀ s st, P s st → Q s st) {sts : List Step}
    (h : Always P s sts) : Always Q s sts := by
  induction sts generalizing s with
  | nil => exact trivial
  | cons st sts ih => exact ⟨hPQ s st h.1, ih h.2⟩

theorem Sometimes.imp {P Q : Session → Step → Prop} (hPQ : ∀ s st, P s st → Q s st)
    {sts : List Step} (h : Sometimes P s sts) : Sometimes Q s sts := by
  induction sts generalizing s with
  | nil => exact h
  | cons st sts ih => exact h.imp (hPQ s st) ih

/-- What a request for a URI of a file shares is kept under the path of the file. -/
theorem shares_of_sharesFor {st : Step} {uri : String} {b : Except Failure Nat}
    (huri : Locates uri path) (h : s.SharesFor st uri b) : s.Shares st path b := by
  obtain ⟨need, hneed, rfl, hshare⟩ := h
  obtain ⟨r, -, hr⟩ := Option.bind_eq_some_iff.1 hneed
  have hkey := (Request.need_some hr).2
  rw [huri.settingsKey] at hkey
  exact ⟨need, hneed, (Except.ok.inj hkey).symm, hshare⟩

theorem need_of_locates {st : Step} {r : Request} {uri : String} {rest : Continuation}
    (hr : s.requestOf st = some r) (ha : r.announced = .ok (uri, rest)) (huri : Locates uri path) :
    s.need? st = some ⟨path, uri, rest⟩ := by
  rw [need?, hr, Option.bind_some, Request.need?, ha]
  dsimp only
  rw [huri.settingsKey]

/-- The request of a lookup by path. -/
theorem requestOf_engine {st : Step} (hcore : st.core = .engine path none)
    (h : Spelling.isAbsolute path = true) : s.requestOf st = some (.engine path) := by
  rw [requestOf, hcore]
  exact if_pos h

theorem lookup_needs {uri written : String} (huri : Locates uri path)
    (hwritten : ofPath path = .ok written) (hlocates : Locates written path) {st : Step}
    (hcore : st.core = .engine path none) :
    s.need? st = some ⟨path, written, .engine path⟩ := by
  have habsolute : Spelling.isAbsolute path = true := by
    obtain ⟨cs, hcs, -⟩ := huri.slash
    rw [Spelling.isAbsolute, hcs]
    rfl
  refine need_of_locates (requestOf_engine hcore habsolute) ?_ hlocates
  rw [Request.announced, hwritten]
  rfl

theorem keepsFile (hs : s.world.cache.Sound) {uri : String} (huri : Locates uri path) :
    s.KeepsFile path := by
  obtain ⟨written, hwritten, hlocates⟩ := huri.written
  have current : ∀ {uri key n}, Locates uri path → World.settingsKey uri = .ok key →
      s.world.cache.current? key = some n → s.world.cache.current? path = some n :=
    fun huri hkey hn => by
      rw [huri.settingsKey] at hkey
      rwa [Except.ok.inj hkey]
  exact {
    key := fun _ => Locates.settingsKey
    written := ⟨written, hwritten, hlocates, hlocates.settingsKey⟩
    needs := fun _ _ _ _ => need_of_locates
    period := fun sts st hnone hkept => by
      obtain ⟨⟨b, hb⟩, hle, hsent, hmade⟩ := run_period hs hnone hkept st
      refine ⟨⟨b, hb.imp fun _ _ h _ b' huri hshares => ?_⟩, fun hasked => hmade.2 ?_, hle,
        fun hasked => hsent.2 ?_⟩
      · exact h b' (shares_of_sharesFor huri hshares)
      · refine hasked.imp fun _ _ => ?_
        rintro ⟨_, b', huri, hshares⟩
        exact ⟨b', shares_of_sharesFor huri hshares⟩
      · refine hasked.imp fun _ _ => ?_
        rintro ⟨_, n, huri, hshares⟩
        exact ⟨n, shares_of_sharesFor huri hshares⟩
    held := fun _ _ n sts st huri hkey hn hkept => by
      obtain ⟨hshares, hmade⟩ := run_held hs (current huri hkey hn) hkept st
      exact ⟨hshares.imp fun _ _ h _ b huri' hb => h b (shares_of_sharesFor huri' hb), hmade⟩
    lookup := fun st hcore => by
      have hneed := lookup_needs (s := s) huri hwritten hlocates hcore
      refine ⟨written, hneed, hlocates, fun _ _ n huri' hkey hn => ?_⟩
      replace hn := current huri' hkey hn
      refine ⟨⟨_, hneed, rfl, by rw [World.share, hn]⟩, ?_⟩
      rw [(step_need hneed).2.1, World.asks, World.sends, hn]
      rfl }

/-- Whatever has happened to a session, it keeps the settings of a file under its path. -/
theorem file_settings_shared (files : Files) (home : String) (client : Client)
    (reply : List Command → Command → Reply) (config : ServerConfig) (logger : Logger)
    (limits : Limits) (before : List Step) {uri path : String} (h : Locates uri path) :
    (run (fresh files home client reply config logger limits) before).1.KeepsFile path :=
  keepsFile (run_cache_sound (fresh_cache_sound files home client reply config logger limits) before) h

theorem file_settings_shared_escaped :
    Locates "file:///tmp/a%2Bb%FF.js" "/tmp/a+b\uFFFD.js" ∧
      (run (fresh {} "/" default default {} {} {}) []).1.KeepsFile "/tmp/a+b\uFFFD.js" := by
  have h : Locates "file:///tmp/a%2Bb%FF.js" "/tmp/a+b\uFFFD.js" :=
    ⟨by decide, by decide +kernel, _, rfl, by decide⟩
  exact ⟨h, file_settings_shared {} "/" default default {} {} {} [] h⟩

end Session

end FormatServer
