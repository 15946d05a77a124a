import FormatServer.Proofs.Session.Fetches

/-!
# Requests share fetches

The current fetch of a key changes only when the key is evicted or a request for it has one sent
(`step_current`). So between two evictions all requests for a key share one fetch (`run_period`),
and whoever is not cancelled goes on with its outcome (`run_receives`).
-/

set_option autoImplicit false

namespace FormatServer

open Act

/-- How a request stands that shares `share`: it waits for that, or has gone on with its outcome. -/
inductive Need.Receives (need : Need) (share : Except Failure Nat) (c : SettingsCache) :
    TaskState → Prop
  | waits {n : Nat} : share = .ok n → Receives need share c (.waiting n need.rest)
  | goes {outcome : Resolution} {u : World} : c.outcomeOf share = some outcome →
      Receives need share c (.ended (need.rest.resume outcome u).1)
  | cancelled : Receives need share c .cancelled

/-! ## The cache in a step -/

namespace World

variable {w : World} {need : Need}

theorem sends_true (h : w.sends need = true) :
    w.cache.current? need.key = none ∧ w.config.sectionRefusal? = none := by
  simpa [sends] using h

/-- The cache after a fetch has been sent, and answered if the client answers at once. -/
theorem fetching_cache (w : World) (key uri : String) :
    (w.fetching key uri).cache = w.cache.send key uri ∨ ∃ a, (w.fetching key uri).cache =
      ((w.cache.send key uri).receive (w.cache.fetches.length + 1) w.trusted a).evict
        (w.cache.fetches.length + 1) := by
  unfold fetching
  cases w.client.settings (w.cache.fetches.length + 1) uri with
  | pending => exact .inl rfl
  | answered a => exact .inr ⟨a, rfl⟩

theorem asking_ages (w : World) (need : Need) : w.cache.Ages (w.asking need) := by
  have hsend := SettingsCache.Ages.send w.cache need.key need.uri
  unfold asking
  split
  · obtain h | ⟨a, h⟩ := w.fetching_cache need.key need.uri
    · rw [h]
      exact hsend
    · rw [h]
      exact hsend.trans ((SettingsCache.Ages.receive _ _ _ _).trans (.evict _ _))
  · exact .refl _

theorem asking_sound (hc : w.cache.Sound) (need : Need) : (w.asking need).Sound := by
  have hsend := hc.send need.key need.uri
  unfold asking
  split
  · obtain h | ⟨a, h⟩ := w.fetching_cache need.key need.uri
    · rw [h]
      exact hsend
    · rw [h]
      exact (hsend.receive _ _ _).evict _
  · exact hc

/-- A fetch is sent where there is none that could be shared. -/
theorem sends_of_share {n : Nat} (hnone : w.cache.current? need.key = none)
    (hshare : w.share need = .ok n) :
    w.sends need = true ∧ n = w.cache.fetches.length + 1 := by
  unfold share at hshare
  rw [hnone] at hshare
  dsimp only at hshare
  cases href : w.config.sectionRefusal? with
  | some reason => rw [href] at hshare; cases hshare
  | none =>
    rw [href] at hshare
    cases hshare
    exact ⟨by rw [sends, hnone, href]; rfl, rfl⟩

/-- The current fetch of a key after a request has asked for settings is the one before, or the one
that the request shares, unless this has been sent now and has failed at once. -/
theorem asking_current (hc : w.cache.Sound) (need : Need) (key : String) (n : Nat) :
    (w.asking need).current? key = some n ↔
      (w.cache.current? key = some n ∨ need.key = key ∧ w.share need = .ok n) ∧
        (w.sends need = true → need.key = key →
          ∀ e, (w.asking need).outcome? n ≠ some (.error e)) := by
  cases hsends : w.sends need with
  | false =>
    have hsame : w.asking need = w.cache := by rw [asking, hsends]; rfl
    rw [hsame]
    refine ⟨fun h => ⟨.inl h, fun h => nomatch h⟩, fun h => h.1.elim id ?_⟩
    rintro ⟨rfl, hshare⟩
    cases hn : w.cache.current? need.key with
    | some m =>
      rw [share, hn] at hshare
      cases hshare
      rfl
    | none =>
      rw [(sends_of_share hn hshare).1] at hsends
      cases hsends
  | true =>
    obtain ⟨hnone, href⟩ := sends_true hsends
    have hshare : w.share need = .ok (w.cache.fetches.length + 1) := by rw [share, hnone, href]
    have hasking : w.asking need = (w.fetching need.key need.uri).cache := by
      rw [asking, hsends]
      rfl
    have hsend := hc.send need.key need.uri
    -- the new fetch is the only one that may be evicted
    have hleft : (w.asking need).current? key = some n ↔
        (w.cache.send need.key need.uri).current? key = some n ∧
          (n = w.cache.fetches.length + 1 → ∀ e, (w.asking need).outcome? n ≠ some (.error e)) := by
      obtain h | ⟨a, h⟩ := w.fetching_cache need.key need.uri
      · rw [hasking, h]
        refine ⟨fun hn => ⟨hn, ?_⟩, And.left⟩
        rintro rfl e he
        rw [SettingsCache.outcome?_of_fetch? (w.cache.fetch?_send_new need.key need.uri)] at he
        cases he
      · rw [hasking, h, (hsend.receive _ _ _).current?_evict, SettingsCache.current?_receive,
          SettingsCache.outcome?_evict]
        refine and_congr_right fun _ => ⟨?_, ?_⟩
        · rintro hgood rfl
          exact hgood rfl
        · rintro hgood rfl
          exact hgood rfl
    rw [hleft, hc.current?_send, hshare]
    by_cases hkey : key = need.key
    · subst hkey
      rw [hnone]
      constructor
      · rintro ⟨⟨-, hn⟩ | ⟨hne, -⟩, hgood⟩
        · exact ⟨.inr ⟨rfl, congrArg _ hn.symm⟩, fun _ _ => hgood hn⟩
        · exact absurd rfl hne
      · rintro ⟨hn | ⟨-, hn⟩, hgood⟩
        · cases hn
        · cases hn
          exact ⟨.inl ⟨rfl, rfl⟩, fun _ => hgood rfl rfl⟩
    · simp only [hkey, false_and, not_false_eq_true, true_and, false_or, ne_eq, Ne.symm hkey,
        or_false, false_implies, implies_true, and_true]
      refine ⟨And.left, fun hn => ⟨hn, ?_⟩⟩
      rintro rfl
      obtain ⟨f, hf, _⟩ := hc.current? hn
      exact absurd (SettingsCache.fetch?_le hf) (Nat.not_succ_le_self _)

end World

namespace Session

/-! ## Evictions -/

/-- The request of the step needs the settings of a key, and this is what it shares. -/
def Shares (s : Session) (st : Step) (key : String) (share : Except Failure Nat) : Prop :=
  ∃ need, s.need? st = some need ∧ need.key = key ∧ s.world.share need = share

/-- The step evicts a key. -/
inductive Evicts (s : Session) (st : Step) (key : String) : Prop
  /-- It drops all entries. -/
  | cleared : st.clears = true → Evicts s st key
  /-- The turn has come to forget the current fetch of the key, which has failed. -/
  | failed {n : Nat} {e : Fault} : st.core = .evict n → s.world.cache.current? key = some n →
      s.world.cache.outcome? n = some (.error e) → Evicts s st key
  /-- The fetch that its request has sent fails at once. -/
  | failedAtOnce {n : Nat} {e : Fault} : s.world.cache.current? key = none →
      s.Shares st key (.ok n) → (step s st).1.world.cache.outcome? n = some (.error e) →
      Evicts s st key
  /-- No fetch can be sent for its request. -/
  | refused {f : Failure} : s.Shares st key (.error f) → Evicts s st key

theorem step_ages (s : Session) (st : Step) : s.world.cache.Ages (step s st).1.world.cache := by
  obtain ⟨need, -, hc⟩ | ⟨-, hc⟩ := step_cache s st
  · rw [hc]
    exact World.asking_ages _ _
  · rw [hc]
    exact st.core.sets_ages s.world

theorem step_cache_sound (s : Session) (st : Step) (hs : s.world.cache.Sound) :
    (step s st).1.world.cache.Sound := by
  obtain ⟨need, -, hc⟩ | ⟨-, hc⟩ := step_cache s st
  · rw [hc]
    exact World.asking_sound hs _
  · rw [hc]
    exact st.core.sets_sound hs

theorem shares_unique {s : Session} {st : Step} {key : String} {b b' : Except Failure Nat}
    (h : s.Shares st key b) (h' : s.Shares st key b') : b = b' := by
  obtain ⟨need, hneed, _, rfl⟩ := h
  obtain ⟨need', hneed', _, rfl⟩ := h'
  rw [hneed] at hneed'
  cases hneed'
  rfl

/-- A request shares the current fetch of its key. -/
theorem shares_current {s : Session} {st : Step} {key : String} {n : Nat} {b : Except Failure Nat}
    (hn : s.world.cache.current? key = some n) (h : s.Shares st key b) : b = .ok n := by
  obtain ⟨need, _, rfl, rfl⟩ := h
  rw [World.share, hn]

theorem shares_iff {s : Session} {st : Step} {need : Need} (h : s.need? st = some need) {key : String}
    {b : Except Failure Nat} : s.Shares st key b ↔ need.key = key ∧ s.world.share need = b := by
  refine ⟨?_, fun hkey => ⟨need, h, hkey⟩⟩
  rintro ⟨need', hneed', hkey⟩
  rw [h] at hneed'
  cases hneed'
  exact hkey

/-- A step that needs no settings evicts a key by dropping all entries, or by forgetting its fetch. -/
theorem evicts_needless {s : Session} {st : Step} (h : s.need? st = none) {key : String} {n : Nat}
    (hn : s.world.cache.current? key = some n) : ¬ s.Evicts st key ↔ st.core ≠ .shutdown ∧
      (st.core = .evict n → ∀ e, s.world.cache.outcome? n ≠ some (.error e)) := by
  have unshared : ∀ {b}, ¬ s.Shares st key b := by
    rintro b ⟨need, hneed, _⟩
    rw [h] at hneed
    cases hneed
  constructor
  · exact fun hkept => ⟨fun hcore => hkept (.cleared (Step.clears_iff.2 hcore)),
      fun hcore e he => hkept (.failed hcore hn he)⟩
  · rintro ⟨hclears, hgood⟩ hevicts
    cases hevicts with
    | cleared h' => exact hclears (Step.clears_iff.1 h')
    | failed hcore hm he =>
      rw [hn] at hm
      cases hm
      exact hgood hcore _ he
    | failedAtOnce _ hshares _ => exact unshared hshares
    | refused hshares => exact unshared hshares

/-- A request evicts no key but its own, and that only if the fetch that it has sent fails at once, or
if none can be sent. -/
theorem evicts_need {s : Session} {st : Step} {need : Need} (h : s.need? st = some need)
    {key : String} (hevicts : s.Evicts st key) : need.key = key ∧
      ∀ n, s.world.cache.current? key = some n ∨ s.world.share need = .ok n →
        s.world.sends need = true ∧ ∃ e, (s.world.asking need).outcome? n = some (.error e) := by
  have unasked : ∀ {st' : Step}, st.core = st' → s.requestOf st ≠ none := fun _ hnone => by
    rw [need_none hnone] at h
    cases h
  cases hevicts with
  | cleared hclears => exact absurd (requestOf_clears hclears) (unasked rfl)
  | failed hcore _ _ => exact absurd (by rw [requestOf, hcore]) (unasked rfl)
  | failedAtOnce hnone hshares he =>
    obtain ⟨rfl, hshare⟩ := (shares_iff h).1 hshares
    refine ⟨rfl, fun m hm => ?_⟩
    rw [hnone, hshare] at hm
    obtain hm | hm := hm
    · cases hm
    · cases hm
      rw [(step_need h).1] at he
      exact ⟨(World.sends_of_share hnone hshare).1, _, he⟩
  | refused hshares =>
    obtain ⟨rfl, hshare⟩ := (shares_iff h).1 hshares
    refine ⟨rfl, fun m hm => ?_⟩
    rw [hshare] at hm
    obtain hm | hm := hm
    · rw [World.share, hm] at hshare
      cases hshare
    · cases hm

/-- After a step the current fetch of a key is the one before it, or one that a request shares now,
unless the step evicts the key. -/
theorem step_current {s : Session} (hs : s.world.cache.Sound) (st : Step) (key : String) (n : Nat) :
    (step s st).1.world.cache.current? key = some n ↔ ¬ s.Evicts st key ∧
      (s.world.cache.current? key = some n ∨ s.Shares st key (.ok n)) := by
  obtain ⟨need, h, hc⟩ | ⟨h, hc⟩ := step_cache s st
  · rw [hc, World.asking_current hs, shares_iff h]
    constructor
    · rintro ⟨hn, hgood⟩
      refine ⟨fun hevicts => ?_, hn⟩
      obtain ⟨hkey, hfails⟩ := evicts_need h hevicts
      obtain ⟨hsends, e, he⟩ := hfails n (hn.imp_right And.right)
      exact hgood hsends hkey e he
    · rintro ⟨hkept, hn⟩
      refine ⟨hn, fun hsends hkey e he => ?_⟩
      have hnone := (World.sends_true hsends).1
      rw [hkey] at hnone
      rw [hnone] at hn
      exact hkept (.failedAtOnce hnone ((shares_iff h).2 (hn.resolve_left nofun)) (by rwa [hc]))
  · have unshared : ¬ s.Shares st key (.ok n) := by
      rintro ⟨need, hneed, _⟩
      rw [h] at hneed
      cases hneed
    rw [hc, st.core.sets_current? hs, or_iff_left unshared]
    refine and_congr_left fun hn => ?_
    rw [evicts_needless h hn]

/-! ## Between two evictions -/

/-- Every step of a run has a property, in the session in which it is taken. -/
def Always (P : Session → Step → Prop) : Session → List Step → Prop
  | _, [] => True
  | s, st :: sts => P s st ∧ Always P (step s st).1 sts

/-- Some step of a run has a property, in the session in which it is taken. -/
def Sometimes (P : Session → Step → Prop) : Session → List Step → Prop
  | _, [] => False
  | s, st :: sts => P s st ∨ Sometimes P (step s st).1 sts

/-- How many fetches for a key a step sends. -/
def sent (s : Session) (key : String) (st : Step) : Nat :=
  ((step s st).2.sent.filter fun m => m.fetchedKey? = some key).length

/-- How many fetches for a key the request of a step cannot have sent: one, or none. -/
def unsendable (s : Session) (key : String) (st : Step) : Nat :=
  match s.need? st with
  | some need =>
    if need.key = key then
      match s.world.share need with
      | .ok _ => 0
      | .error _ => 1
    else 0
  | none => 0

/-- How many fetches for a key a step makes: those that it sends, and one that fails because it cannot
be sent. -/
def made (s : Session) (key : String) (st : Step) : Nat := s.sent key st + s.unsendable key st

/-- How many fetches for a key a run sends. -/
def sentIn (key : String) : Session → List Step → Nat
  | _, [] => 0
  | s, st :: sts => s.sent key st + sentIn key (step s st).1 sts

/-- How many fetches for a key a run makes. -/
def madeIn (key : String) : Session → List Step → Nat
  | _, [] => 0
  | s, st :: sts => s.made key st + madeIn key (step s st).1 sts

theorem sentIn_le_madeIn (key : String) (s : Session) (sts : List Step) :
    sentIn key s sts ≤ madeIn key s sts := by
  induction sts generalizing s with
  | nil => exact Nat.le_refl 0
  | cons st sts ih => exact Nat.add_le_add (Nat.le_add_right _ _) (ih _)

theorem filter_fetchedKey (ms : List Message) (key : String) :
    (ms.filter fun m => m.fetchedKey? = some key) =
      (ms.filter fun m => m.fetchedKey?.isSome).filter fun m => m.fetchedKey? = some key := by
  rw [List.filter_filter]
  refine List.filter_congr fun m _ => ?_
  cases m.fetchedKey? <;> simp

theorem made_of_unasked {s : Session} {st : Step} {key : String} (h : ∀ b, ¬ s.Shares st key b) :
    s.made key st = 0 := by
  unfold made sent unsendable
  rw [filter_fetchedKey]
  cases hneed : s.need? st with
  | none =>
    rw [(step_needless hneed).2]
    rfl
  | some need =>
    have hkey : need.key ≠ key := fun hkey => h _ ⟨need, hneed, hkey, rfl⟩
    obtain ⟨r, _, hr⟩ := Option.bind_eq_some_iff.1 hneed
    have hfetched := (Request.need_some hr).2
    rw [(step_need hneed).2.1, World.asks]
    dsimp only
    rw [if_neg hkey]
    split
    · rw [List.filter_singleton]
      simp [Message.fetchedKey?, hfetched, Except.toOption, hkey]
    · rfl

theorem sent_of_need {s : Session} {st : Step} {need : Need} (h : s.need? st = some need) :
    s.sent need.key st = if s.world.sends need then 1 else 0 := by
  obtain ⟨r, _, hr⟩ := Option.bind_eq_some_iff.1 h
  have hfetched := (Request.need_some hr).2
  unfold sent
  rw [filter_fetchedKey, (step_need h).2.1, World.asks]
  split
  · simp [Message.fetchedKey?, hfetched, Except.toOption]
  · rfl

theorem made_of_need {s : Session} {st : Step} {need : Need} (h : s.need? st = some need) :
    s.made need.key st = if (s.world.cache.current? need.key).isNone then 1 else 0 := by
  unfold made unsendable
  rw [sent_of_need h, h]
  dsimp only
  rw [if_pos rfl, World.sends, World.share]
  cases s.world.cache.current? need.key with
  | some n => rfl
  | none => cases s.world.config.sectionRefusal? <;> rfl

theorem made_of_current {s : Session} {st : Step} {key : String} {n : Nat}
    (hn : s.world.cache.current? key = some n) : s.made key st = 0 := by
  by_cases h : ∃ b, s.Shares st key b
  · obtain ⟨b, need, hneed, rfl, _⟩ := h
    rw [made_of_need hneed, hn]
    rfl
  · exact made_of_unasked fun b hb => h ⟨b, hb⟩

/-- As long as a fetch is not evicted all requests for its key share it, and no other is made. -/
theorem run_held {s : Session} (hs : s.world.cache.Sound) {key : String} {n : Nat}
    (hn : s.world.cache.current? key = some n) {sts : List Step}
    (hkept : Always (fun s st => ¬ s.Evicts st key) s sts) (st : Step) :
    Always (fun s st => ∀ b, s.Shares st key b → b = .ok n) s (sts ++ [st]) ∧
      madeIn key s (sts ++ [st]) = 0 := by
  induction sts generalizing s with
  | nil => exact ⟨⟨fun _ => shares_current hn, trivial⟩, made_of_current hn⟩
  | cons st' sts ih =>
    obtain ⟨hst, hkept⟩ := hkept
    have hnext := (step_current hs st' key n).2 ⟨hst, .inl hn⟩
    obtain ⟨hshares, hmade⟩ := ih (step_cache_sound s st' hs) hnext hkept
    refine ⟨⟨fun _ => shares_current hn, hshares⟩, ?_⟩
    show s.made key st' + madeIn key _ (sts ++ [st]) = 0
    rw [made_of_current hn, hmade]

/-- Where there is no fetch to share one is made, which is sent if it can be. -/
theorem made_of_first {s : Session} {st : Step} {key : String} {b : Except Failure Nat}
    (hnone : s.world.cache.current? key = none) (h : s.Shares st key b) :
    s.made key st = 1 ∧ (s.sent key st = 1 ↔ ∃ n, b = .ok n) := by
  obtain ⟨need, hneed, rfl, rfl⟩ := h
  refine ⟨by rw [made_of_need hneed, hnone]; rfl, ?_⟩
  rw [sent_of_need hneed, World.sends, World.share, hnone]
  cases s.world.config.sectionRefusal? <;> simp

/-- The requests for a key in a period in which it is not evicted. -/
structure Period (key : String) (s : Session) (sts : List Step) : Prop where
  /-- They all share the same. -/
  shared : ∃ b, Always (fun s st => ∀ b', s.Shares st key b' → b' = b) s sts
  /-- One fetch at most is sent for them. -/
  sent_le : sentIn key s sts ≤ 1
  /-- One is sent if there is any request for which one can be. -/
  sent_iff : sentIn key s sts = 1 ↔ Sometimes (fun s st => ∃ n, s.Shares st key (.ok n)) s sts
  /-- It is made, be it sent or not, if there is any request. -/
  made_iff : madeIn key s sts = 1 ↔ Sometimes (fun s st => ∃ b, s.Shares st key b) s sts

/-- A period may end with a step that evicts the key. -/
theorem run_period {s : Session} (hs : s.world.cache.Sound) {key : String}
    (hnone : s.world.cache.current? key = none) {sts : List Step}
    (hkept : Always (fun s st => ¬ s.Evicts st key) s sts) (st : Step) :
    Period key s (sts ++ [st]) := by
  induction sts generalizing s with
  | nil =>
    by_cases h : ∃ b, s.Shares st key b
    · obtain ⟨b, hb⟩ := h
      obtain ⟨hmade, hsent⟩ := made_of_first hnone hb
      have hle : s.sent key st ≤ s.made key st := Nat.le_add_right _ _
      refine ⟨⟨b, fun b' hb' => shares_unique hb' hb, trivial⟩, hmade ▸ hle, ?_, ?_⟩
      · refine hsent.trans ⟨?_, ?_⟩
        · rintro ⟨n, rfl⟩
          exact .inl ⟨n, hb⟩
        · rintro (⟨n, hn⟩ | h)
          · exact ⟨n, shares_unique hb hn⟩
          · exact h.elim
      · exact ⟨fun _ => .inl ⟨b, hb⟩, fun _ => hmade⟩
    · have hmade : madeIn key s ([] ++ [st]) = 0 := made_of_unasked fun b hb => h ⟨b, hb⟩
      have hsent : sentIn key s ([] ++ [st]) = 0 :=
        Nat.le_zero.1 (hmade ▸ sentIn_le_madeIn key s ([] ++ [st]))
      refine ⟨⟨.ok 0, fun b hb => absurd ⟨b, hb⟩ h, trivial⟩, by omega, ?_, ?_⟩
      · exact iff_of_false (by omega) (not_or.2 ⟨fun ⟨n, hn⟩ => h ⟨_, hn⟩, id⟩)
      · exact iff_of_false (by omega) (not_or.2 ⟨h, id⟩)
  | cons st' sts ih =>
    obtain ⟨hst, hkept⟩ := hkept
    have hsound := step_cache_sound s st' hs
    have hmade : madeIn key s (st' :: sts ++ [st]) =
        s.made key st' + madeIn key (step s st').1 (sts ++ [st]) := rfl
    have hsent : sentIn key s (st' :: sts ++ [st]) =
        s.sent key st' + sentIn key (step s st').1 (sts ++ [st]) := rfl
    by_cases h : ∃ b, s.Shares st' key b
    · obtain ⟨b, hb⟩ := h
      cases b with
      | error f => exact absurd (.refused hb) hst
      | ok n =>
        -- the fetch is made now, and held from then on
        have hnext := (step_current hs st' key n).2 ⟨hst, .inr hb⟩
        obtain ⟨hshares, hrest⟩ := run_held hsound hnext hkept st
        obtain ⟨hfirst, hfirst'⟩ := made_of_first hnone hb
        have hone := hfirst'.2 ⟨n, rfl⟩
        have hzero := Nat.le_zero.1 (hrest ▸ sentIn_le_madeIn key (step s st').1 (sts ++ [st]))
        rw [hrest, hfirst] at hmade
        rw [hzero, hone] at hsent
        exact ⟨⟨.ok n, fun b' hb' => shares_unique hb' hb, hshares⟩, Nat.le_of_eq hsent,
          iff_of_true hsent (.inl ⟨n, hb⟩), iff_of_true hmade (.inl ⟨_, hb⟩)⟩
    · have hnext : (step s st').1.world.cache.current? key = none := by
        cases hn : (step s st').1.world.cache.current? key with
        | none => rfl
        | some n =>
          obtain hn | hn := ((step_current hs st' key n).1 hn).2
          · rw [hnone] at hn
            cases hn
          · exact absurd ⟨_, hn⟩ h
      obtain ⟨⟨b, hshares⟩, hle, hsent', hmade'⟩ := ih hsound hnext hkept
      have hunmade := made_of_unasked fun b hb => h ⟨b, hb⟩
      have hunsent : s.sent key st' = 0 := Nat.eq_zero_of_add_eq_zero_right hunmade
      rw [hunmade, Nat.zero_add] at hmade
      rw [hunsent, Nat.zero_add] at hsent
      refine ⟨⟨b, fun b' hb' => absurd ⟨b', hb'⟩ h, hshares⟩, hsent ▸ hle, ?_, ?_⟩
      · rw [hsent]
        exact hsent'.trans (or_iff_right fun ⟨n, hn⟩ => h ⟨_, hn⟩).symm
      · rw [hmade]
        exact hmade'.trans (or_iff_right h).symm

/-! ## What becomes of a request -/

/-- How the request of a step stands after more steps: as its task does, if it has left one to wait. -/
def fate (s : Session) (st : Step) (sts : List Step) : TaskState :=
  match s.stands st with
  | .waiting n rest =>
    (((run (step s st).1 sts).1.tasks[s.tasks.length]?).map Task.state).getD (.waiting n rest)
  | state => state

theorem run_ages (s : Session) (sts : List Step) : s.world.cache.Ages (run s sts).1.world.cache := by
  induction sts generalizing s with
  | nil => exact .refl _
  | cons st sts ih => exact (step_ages s st).trans (ih (step s st).1)

theorem run_cache_sound {s : Session} (hs : s.world.cache.Sound) (sts : List Step) :
    (run s sts).1.world.cache.Sound :=
  run_invariant (P := fun s => s.world.cache.Sound) (Q := fun _ => True)
    (fun s st _ => step_cache_sound s st) hs fun _ _ => trivial

theorem step_task {s : Session} {i : Nat} {t : Task} (ht : s.tasks[i]? = some t) (st : Step) :
    ∃ t', (step s st).1.tasks[i]? = some t' ∧ Becomes s st t t' := by
  obtain ⟨new, hstate, _⟩ := step_state s st
  obtain ⟨hi, rfl⟩ := List.getElem?_eq_some_iff.1 ht
  have hold := take_becomes s st
  have hi' : i < (take st.core s).2.tasks.length := by rw [← hold.length_eq]; exact hi
  refine ⟨_, ?_, hold.get hi hi'⟩
  rw [hstate, adding, List.getElem?_append_left hi']
  exact List.getElem?_eq_getElem hi'

theorem outcomeOf_ages {c c' : SettingsCache} (h : c.Ages c') {b : Except Failure Nat} {o : Resolution}
    (ho : c.outcomeOf b = some o) : c'.outcomeOf b = some o := by
  cases b with
  | ok n => exact h.outcome ho
  | error f => exact ho

theorem Becomes.receives {s : Session} {st : Step} {t t' : Task} (h : Becomes s st t t') {need : Need}
    {b : Except Failure Nat} (hr : need.Receives b s.world.cache t.state) :
    need.Receives b (step s st).1.world.cache t'.state := by
  cases h with
  | @goes fetch rest outcome u hcore hwait hout _ =>
    rw [hwait] at hr
    cases hr with
    | waits hb =>
      refine .goes (outcomeOf_ages (step_ages s st) ?_)
      rw [hb]
      exact hout
  | cancelled _ _ _ => exact .cancelled
  | stays _ =>
    generalize t.state = state at hr
    cases hr with
    | waits hb => exact .waits hb
    | goes ho => exact .goes (outcomeOf_ages (step_ages s st) ho)
    | cancelled => exact .cancelled

/-- A task that does not wait is left alone. -/
theorem Becomes.settled {s : Session} {st : Step} {t t' : Task} (h : Becomes s st t t')
    (ht : ∀ n rest, t.state ≠ .waiting n rest) : t' = t := by
  cases h with
  | goes _ hwait _ _ => exact absurd hwait (ht _ _)
  | cancelled _ _ hwait => exact absurd hwait (ht _ _)
  | stays _ => rfl

/-- Once its turn has come after the fetch has ended, a task does not wait for it any more. -/
theorem Becomes.turned {s : Session} {st : Step} {t t' : Task} (h : Becomes s st t t') {n : Nat}
    (hcore : st.core = .resume n) (ho : s.world.cache.outcome? n ≠ none) (rest : Continuation) :
    t'.state ≠ .waiting n rest := by
  cases h with
  | goes _ _ _ _ => exact fun h => nomatch h
  | cancelled hcore' _ _ =>
    rw [hcore] at hcore'
    cases hcore'
  | stays hstays => exact fun h => ho (hstays n rest hcore h)

/-- The turn of those comes who wait for a fetch that has ended. -/
def Turns (n : Nat) (s : Session) (st : Step) : Prop :=
  st.core = .resume n ∧ s.world.cache.outcome? n ≠ none

/-- What becomes in a run of a task that waits for what a request shares. -/
theorem run_task {s : Session} {i : Nat} {t : Task} (ht : s.tasks[i]? = some t) {need : Need}
    {b : Except Failure Nat} (hr : need.Receives b s.world.cache t.state) (sts : List Step) :
    ∃ t', (run s sts).1.tasks[i]? = some t' ∧
      need.Receives b (run s sts).1.world.cache t'.state ∧
      (t'.state = .cancelled → t.state = .cancelled ∨ ∃ st ∈ sts, ∃ id, st.core = .cancel id) ∧
      ∀ n, b = .ok n → (Sometimes (Turns n) s sts ∨ ∀ rest, t.state ≠ .waiting n rest) →
        ∀ rest, t'.state ≠ .waiting n rest := by
  induction sts generalizing s t with
  | nil => exact ⟨t, ht, hr, .inl, fun n _ h => h.elim False.elim id⟩
  | cons st sts ih =>
    obtain ⟨u, hu, hbecomes⟩ := step_task ht st
    obtain ⟨t', ht', hr', hcancelled, hturned⟩ := ih hu (hbecomes.receives hr)
    refine ⟨t', ht', hr', fun h => ?_, fun n hb h => hturned n hb ?_⟩
    · obtain h | ⟨st', hmem, hst'⟩ := hcancelled h
      · cases hbecomes with
        | goes _ _ _ _ => cases h
        | cancelled hcore _ _ => exact .inr ⟨st, List.mem_cons_self, _, hcore⟩
        | stays _ => exact .inl h
      · exact .inr ⟨st', List.mem_cons_of_mem st hmem, hst'⟩
    · obtain (⟨hcore, ho⟩ | hlater) | hsettled := h
      · exact .inr (hbecomes.turned hcore ho)
      · exact .inl hlater
      · -- it waits for nothing else either
        refine .inr fun rest => ?_
        rw [hbecomes.settled fun m rest' hwait => ?_]
        · exact hsettled rest
        · rw [hwait] at hr
          cases hr with
          | waits hb' =>
            rw [hb] at hb'
            cases hb'
            exact hsettled _ hwait

end Session

/-- What a request shares is a fetch for its key. -/
theorem World.share_fetch {w : World} (hc : w.cache.Sound) {need : Need} {n : Nat}
    (h : w.share need = .ok n) : ∃ f, (w.asking need).fetch? n = some f ∧ f.key = need.key := by
  unfold share at h
  cases hn : w.cache.current? need.key with
  | some m =>
    rw [hn] at h
    cases h
    obtain ⟨f, hf, hkey⟩ := hc.current? hn
    obtain ⟨f', hf', hkey', _⟩ := (w.asking_ages need).fetch _ f hf
    exact ⟨f', hf', hkey'.trans hkey⟩
  | none =>
    rw [← share] at h
    obtain ⟨hsends, rfl⟩ := sends_of_share hn h
    have hasking : w.asking need = (w.fetching need.key need.uri).cache := by
      rw [asking, hsends]
      rfl
    have hages : (w.cache.send need.key need.uri).Ages (w.asking need) := by
      rw [hasking]
      obtain h | ⟨a, h⟩ := w.fetching_cache need.key need.uri
      · rw [h]
        exact .refl _
      · rw [h]
        exact (SettingsCache.Ages.receive _ _ _ _).trans (.evict _ _)
    obtain ⟨f, hf, hkey, _⟩ := hages.fetch _ _ (w.cache.fetch?_send_new need.key need.uri)
    exact ⟨f, hf, hkey⟩

namespace Session

/-- Whatever comes after it, a request that needs settings waits for what it shares and goes on with
its outcome when its turn comes, unless it is cancelled. -/
theorem run_receives {s : Session} {st : Step} {need : Need} (h : s.need? st = some need)
    (sts : List Step) :
    need.Receives (s.world.share need) (run (step s st).1 sts).1.world.cache (s.fate st sts) ∧
      (s.fate st sts = .cancelled → ∃ st' ∈ sts, ∃ id, st'.core = .cancel id) ∧
      ∀ n, s.world.share need = .ok n → Sometimes (Turns n) (step s st).1 sts →
        ∀ rest, s.fate st sts ≠ .waiting n rest := by
  obtain ⟨hcache, _, hstands⟩ := step_need h
  unfold fate
  obtain ⟨n, hshare, ho, hwait⟩ | ⟨o, u, ho, hended⟩ := hstands
  · rw [hwait]
    dsimp only
    obtain ⟨t, ht, hstate⟩ := stands_waiting hwait
    have hr : need.Receives (s.world.share need) (step s st).1.world.cache t.state := by
      rw [hstate]
      exact .waits hshare
    obtain ⟨t', ht', hr', hcancelled, hturned⟩ := run_task ht hr sts
    rw [ht']
    refine ⟨hr', fun h => (hcancelled h).resolve_left fun h' => ?_, fun m hm hturns =>
      hturned m hm (.inl hturns)⟩
    rw [hstate] at h'
    cases h'
  · rw [hended]
    dsimp only
    refine ⟨.goes (outcomeOf_ages (run_ages _ sts) ?_), fun h => (by cases h),
      fun _ _ _ _ h => (by cases h)⟩
    rw [hcache]
    exact ho

/-! ## The end of a fetch -/

end Session

/-- The step is one of those by which a fetch comes to its end: its answer, and what follows. -/
def Step.Finishes (st : Step) (n : Nat) : Prop :=
  (∃ a, st.core = .answer n a) ∨ st.core = .evict n ∨ st.core = .resume n

namespace Session

theorem finishes_need {s : Session} {st : Step} {n : Nat} (h : st.Finishes n) : s.need? st = none := by
  obtain ⟨a, hcore⟩ | hcore | hcore := h <;> exact need_none (by rw [requestOf, hcore])

/-- The client's answer ends a fetch that is under way. -/
theorem answer_ends {s : Session} {st : Step} {n : Nat} {a : Except String Json} {f : Fetch}
    (hcore : st.core = .answer n a) (hf : s.world.cache.fetch? n = some f) (ho : f.outcome = none) :
    (step s st).1.world.cache.fetch? n =
      some { f with outcome := some (SettingsCache.resolve f.uri s.world.trusted a) } := by
  rw [answer_cache hcore]
  exact SettingsCache.fetch?_receive hf ho _ _

/-- Once the turn of those has come who wait for a fetch that has ended, none of them waits. -/
theorem resume_ends {s : Session} {st : Step} {n : Nat} (h : Turns n s st) :
    ∀ t ∈ (step s st).1.tasks, ∀ rest, t.state ≠ .waiting n rest := by
  obtain ⟨hcore, ho⟩ := h
  obtain ⟨new, hstate, hnew⟩ := step_state s st
  rw [hstate]
  intro t ht
  obtain ht | ht := List.mem_append.1 ht
  · obtain ⟨t₀, -, hbecomes⟩ := take_mem ht
    exact hbecomes.turned hcore ho
  · have hended : standing (take st.core s).1 = .ended (.ok .nothing) := by
      rw [hcore]
      show standing (resume n s).1 = _
      rw [resume_apply]
      rfl
    cases hnew with
    | nothing _ => cases ht
    | tasks hothers =>
      intro rest hwait
      rcases List.mem_cons.1 ht with rfl | ht
      · rw [hended] at hwait
        cases hwait
      · rw [hothers t ht] at hwait
        cases hwait

/-- Where a key is not evicted and no request is for it, its entry stays. -/
theorem step_keeps {s : Session} (hs : s.world.cache.Sound) {st : Step} {key : String}
    (hkept : ¬ s.Evicts st key) (hshares : ∀ b, ¬ s.Shares st key b) :
    (step s st).1.world.cache.current? key = s.world.cache.current? key := by
  refine Option.ext fun n => ?_
  rw [step_current hs, or_iff_left (hshares _)]
  exact and_iff_right hkept

/-- The end of a fetch leaves the entry of a key alone that does not hold it. -/
theorem finishes_keeps {s : Session} (hs : s.world.cache.Sound) {st : Step} {n : Nat}
    (h : st.Finishes n) {key : String} (hn : s.world.cache.current? key ≠ some n) :
    (step s st).1.world.cache.current? key = s.world.cache.current? key := by
  have unshared : ∀ b, ¬ s.Shares st key b := by
    rintro b ⟨need, hneed, _⟩
    rw [finishes_need h] at hneed
    cases hneed
  refine step_keeps hs (fun hevicts => ?_) unshared
  cases hevicts with
  | cleared hclears =>
    rw [Step.clears_iff] at hclears
    obtain ⟨a, hcore⟩ | hcore | hcore := h <;> rw [hcore] at hclears <;> cases hclears
  | failed hcore' hm _ =>
    obtain ⟨a, hcore⟩ | hcore | hcore := h <;> rw [hcore] at hcore' <;> cases hcore'
    exact hn hm
  | failedAtOnce _ hshares _ => exact unshared _ hshares
  | refused hshares => exact unshared _ hshares

/-- Once all entries have been dropped no older fetch comes back. -/
theorem run_orphaned {s : Session} (hs : s.world.cache.Sound) {st : Step} (hst : st.clears = true)
    {n : Nat} (hn : n ≤ s.world.cache.fetches.length) (sts : List Step) (key : String) :
    (run (step s st).1 sts).1.world.cache.current? key ≠ some n := by
  have hsound := run_cache_sound (step_cache_sound s st hs) sts
  have hages := run_ages (step s st).1 sts
  rw [clear_cache hst] at hages
  intro h
  exact absurd (hages.entry _ (hsound.current?_iff.1 h) hn) List.not_mem_nil

theorem cancel_leaves {s : Session} {st : Step} {id : String} (hcore : st.core = .cancel id) :
    (step s st).1.world = s.world ∧
      List.Forall₂ (Cancelled id) s.tasks ((step s st).1.tasks.take s.tasks.length) := by
  obtain ⟨p, ts, hcancel, _, hts⟩ := cancel_state id s
  have htake : take st.core s = (p, { s with tasks := ts }) := by rw [hcore]; exact hcancel
  obtain ⟨new, hstate, _⟩ := step_state s st
  refine ⟨by rw [step_world, htake], ?_⟩
  rw [hstate, htake]
  show List.Forall₂ _ _ ((ts ++ new).take _)
  rw [hts.length_eq, List.take_left]
  exact hts

/-! ## The protocol -/

/-- How a session goes on to share fetches, whatever the next steps are. -/
structure SharesFetches (s : Session) : Prop where
  /-- The current fetch of a key is the one before the step, or one that a request shares now, unless
  the step evicts the key. -/
  current : ∀ st key n, (step s st).1.world.cache.current? key = some n ↔ ¬ s.Evicts st key ∧
    (s.world.cache.current? key = some n ∨ s.Shares st key (.ok n))
  /-- From one eviction of a key to the next, which may be the last step, the requests for the key
  share one fetch, which is sent once. -/
  period : ∀ key sts st, s.world.cache.current? key = none →
    Always (fun s st => ¬ s.Evicts st key) s sts → Period key s (sts ++ [st])
  /-- A request waits for what it shares, unless it is cancelled, until the fetch has ended and its
  turn has come. Then it goes on with the outcome. -/
  receives : ∀ st need sts, s.need? st = some need →
    need.Receives (s.world.share need) (run (step s st).1 sts).1.world.cache (s.fate st sts) ∧
      (s.fate st sts = .cancelled → ∃ st' ∈ sts, ∃ id, st'.core = .cancel id) ∧
      ∀ n, s.world.share need = .ok n → Sometimes (Turns n) (step s st).1 sts →
        ∀ rest, s.fate st sts ≠ .waiting n rest
  /-- The client's answer ends a fetch that is under way. -/
  answers : ∀ st n a f, st.core = .answer n a → s.world.cache.fetch? n = some f →
    f.outcome = none → (step s st).1.world.cache.fetch? n =
      some { f with outcome := some (SettingsCache.resolve f.uri s.world.trusted a) }
  /-- Once the turn of those has come who wait for a fetch that has ended, none of them waits. -/
  resumes : ∀ st n, Turns n s st →
    ∀ t ∈ (step s st).1.tasks, ∀ rest, t.state ≠ .waiting n rest
  /-- How a fetch has ended stays. -/
  outcome : ∀ n o sts, s.world.cache.outcome? n = some o →
    (run s sts).1.world.cache.outcome? n = some o
  /-- Cancelling a task leaves the fetch that it waits for alone, and whoever has another name. -/
  cancel : ∀ st id, st.core = .cancel id → (step s st).1.world = s.world ∧
    List.Forall₂ (Cancelled id) s.tasks ((step s st).1.tasks.take s.tasks.length)
  /-- A fetch that was sent before all entries were dropped never becomes current again, and its end
  changes no entry. -/
  orphan : ∀ st n sts, st.clears = true → n ≤ s.world.cache.fetches.length →
    let s' := (run (step s st).1 sts).1
    (∀ key, s'.world.cache.current? key ≠ some n) ∧ ∀ st' key, st'.Finishes n →
      (step s' st').1.world.cache.current? key = s'.world.cache.current? key
  /-- The end of a fetch for one key leaves the entries of other keys alone. -/
  ends : ∀ st n f key, st.Finishes n → s.world.cache.fetch? n = some f → key ≠ f.key →
    (step s st).1.world.cache.current? key = s.world.cache.current? key
  /-- So does a request, which shares a fetch for its own key. -/
  requests : ∀ st need, s.need? st = some need →
    (∀ key, key ≠ need.key →
      (step s st).1.world.cache.current? key = s.world.cache.current? key) ∧
    ∀ n, s.world.share need = .ok n →
      ∃ f, (step s st).1.world.cache.fetch? n = some f ∧ f.key = need.key

theorem sharesFetches {s : Session} (hs : s.world.cache.Sound) : s.SharesFetches where
  current := step_current hs
  period _ _ st hnone hkept := run_period hs hnone hkept st
  receives _ _ sts h := run_receives h sts
  answers _ _ _ _ := answer_ends
  resumes _ _ := resume_ends
  outcome _ _ sts h := (run_ages s sts).outcome h
  cancel _ _ hcore := cancel_leaves hcore
  orphan st n sts hst hn := by
    have horphaned := run_orphaned hs hst hn sts
    refine ⟨horphaned, fun st' key hfinishes => ?_⟩
    exact finishes_keeps (run_cache_sound (step_cache_sound s st hs) sts) hfinishes (horphaned key)
  ends st n f key hfinishes hf hkey := by
    refine finishes_keeps hs hfinishes fun hn => ?_
    obtain ⟨f', hf', hkey'⟩ := hs.current? hn
    rw [hf] at hf'
    cases hf'
    exact hkey hkey'.symm
  requests st need h := by
    refine ⟨fun key hkey => step_keeps hs (fun hevicts => ?_) fun b hshares => ?_,
      fun n hshare => ?_⟩
    · exact hkey (evicts_need h hevicts).1.symm
    · exact hkey ((shares_iff h).1 hshares).1.symm
    · rw [(step_need h).1]
      exact World.share_fetch hs hshare

theorem fresh_cache_sound (files : Files) (home : String) (client : Client)
    (reply : List Command → Command → Reply) (config : ServerConfig) (logger : Logger)
    (limits : Limits) : (fresh files home client reply config logger limits).world.cache.Sound :=
  ⟨List.nodup_nil, fun _ _ h => absurd h List.not_mem_nil⟩

/-- Whatever has happened to a session, its requests share fetches. -/
theorem settings_shared (files : Files) (home : String) (client : Client)
    (reply : List Command → Command → Reply) (config : ServerConfig) (logger : Logger)
    (limits : Limits) (before : List Step) :
    (run (fresh files home client reply config logger limits) before).1.SharesFetches :=
  sharesFetches
    (run_cache_sound (fresh_cache_sound files home client reply config logger limits) before)

/-- Two tasks share a fetch, which goes on when the first of them is cancelled. -/
example :
    let client : Client := ⟨fun _ _ => .pending, fun _ _ => .ok .null⟩
    let sts := [.start "first" (.settings "file:///a.js"), .start "second" (.settings "file:///a.js"),
      .cancel "first", .answer 1 (.ok .null), .resume 1]
    let p := run (fresh {} "/" client default {} {} {}) sts
    p.2.map (fun r => r.sent.length) = [1, 0, 0, 0, 0] ∧
      p.1.tasks.map (fun t => match t.state with | .ended (.ok _) => true | _ => false) =
        [false, true] := by
  decide +kernel

end Session

end FormatServer
