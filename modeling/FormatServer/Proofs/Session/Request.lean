import FormatServer.Proofs.World.Frame

/-!
# How a request goes

A request announces itself, asks for settings, and then either waits for them or goes on with them.
`fetched` lists what asking for settings can come to, `Request.ran` what a whole request can come
to. `Continuation.resume_told` says what is done once the settings are there: it stays within
`World.Frame`, and then the client is told to apply the edits that are the answer.
-/

set_option autoImplicit false

namespace FormatServer

open Act

/-! ## Asking for settings -/

namespace World

/-- The world after a fetch has been sent, and answered if the client answers at once. -/
def fetching (w : World) (key uri : String) : World :=
  { w with
    journal := { w.journal with
      sent := w.journal.sent ++ [.fetchSettings uri w.config.settingsSection] }
    cache := match w.client.settings (w.cache.fetches.length + 1) uri with
      | .pending => w.cache.send key uri
      | .answered a =>
        ((w.cache.send key uri).receive (w.cache.fetches.length + 1) w.trusted a).evict
          (w.cache.fetches.length + 1) }

/-- What asking for the settings of a URI comes to. -/
inductive Fetched (uri : String) (w : World) : Except Fault Nat × World → Prop
  | nameless {e : Fault} : settingsKey uri = .error e → Fetched uri w (.error e, w)
  | shared {key : String} {n : Nat} : settingsKey uri = .ok key → w.cache.current? key = some n →
      Fetched uri w (.ok n, w)
  | refused {key reason : String} : settingsKey uri = .ok key → w.cache.current? key = none →
      w.config.sectionRefusal? = some reason →
      Fetched uri w (.error (.failure (.settings reason uri)), w)
  | sent {key : String} : settingsKey uri = .ok key → w.cache.current? key = none →
      w.config.sectionRefusal? = none →
      Fetched uri w (.ok (w.cache.fetches.length + 1), w.fetching key uri)

theorem fetched (uri : String) (w : World) : Fetched uri w (fetchSettings uri w) := by
  unfold fetchSettings
  cases hkey : settingsKey uri with
  | error e => exact .nameless hkey
  | ok key =>
    rw [bind_ok (rfl : Act.ofExcept (.ok key) w = (.ok key, w)),
      bind_ok (rfl : (get : Act World World) w = (.ok w, w))]
    cases hn : w.cache.current? key with
    | some n => exact .shared hkey hn
    | none =>
      dsimp only
      cases hs : w.config.sectionRefusal? with
      | some reason => exact .refused hkey hn hs
      | none =>
        have h := Fetched.sent hkey hn hs
        unfold fetching at h
        dsimp only
        cases hc : w.client.settings (w.cache.fetches.length + 1) uri with
        | pending =>
          rw [hc] at h
          exact h
        | answered a =>
          rw [hc] at h
          exact h

/-- Asking for settings sends a fetch, or else leaves the world as it is. -/
theorem fetchSettings_moves {R : World → World → Prop} (hR : ∀ w, R w w) (uri : String)
    (hsent : ∀ w key, R w (w.fetching key uri)) : Moves R (fetchSettings uri) := by
  intro w
  generalize hp : fetchSettings uri w = p
  have h := fetched uri w
  rw [hp] at h
  cases h with
  | nameless _ => exact hR w
  | shared _ _ => exact hR w
  | refused _ _ _ => exact hR w
  | sent _ _ _ => exact hsent w _

end World

/-! ## A whole request -/

/-- The URI that a request needs settings for, and what is left to do then. -/
def Request.announced : Request → Except Fault (String × Continuation)
  | .settings uri => .ok (uri, .settings)
  | .engine path => (Uri.ofPath path).map fun uri => (uri, .engine path)
  | .text d source request => d.path.map fun path => (d.uri, .text d path source request)
  | .edits d request label => d.path.map fun path => (d.uri, .edits d path request label)

theorem Request.announce_fst (r : Request) (w : World) : (r.announce w).1 = r.announced := by
  have announce : ∀ (d : Snapshot) (f : String → Continuation),
      ((do return (d.uri, f (← Pipeline.announce World.collaborators d)) : Act World _) w).1 =
        d.path.map fun path => (d.uri, f path) := fun d f => by
    unfold Pipeline.announce Pipeline.info
    cases d.path <;> rfl
  cases r with
  | settings uri => rfl
  | engine path =>
    show ((do
      return (← Act.ofExcept (Uri.ofPath path), Continuation.engine path) : Act World _) w).1 = _
    rw [announced]
    cases Uri.ofPath path <;> rfl
  | text d source request => exact announce d fun path => .text d path source request
  | edits d request label => exact announce d fun path => .edits d path request label

theorem Request.announced_of_announce {r : Request} {w : World}
    {p : Except Fault (String × Continuation) × World} (h : r.announce w = p) : r.announced = p.1 := by
  rw [← r.announce_fst w, h]

theorem Request.announced_edits {r : Request} {uri : String} {d : Snapshot} {path : String}
    {request : FormatRequest} {label : Option String}
    (h : r.announced = .ok (uri, .edits d path request label)) :
    d.path = .ok path ∧ r = .edits d request label := by
  cases r with
  | settings uri' => cases h
  | engine path' =>
    dsimp only [announced] at h
    cases hp : Uri.ofPath path' <;> rw [hp] at h <;> cases h
  | text d' source request' =>
    dsimp only [announced] at h
    cases hp : d'.path <;> rw [hp] at h <;> cases h
  | edits d' request' label' =>
    dsimp only [announced] at h
    cases hp : d'.path <;> rw [hp] at h <;> cases h
    exact ⟨hp, rfl⟩

/-- An end of an action as the end of a task. -/
def Progress.ends (p : Except Fault Answer × World) : Except Fault Progress × World :=
  (p.1.map .ended, p.2)

/-- What a request comes to. -/
inductive Request.Ran (r : Request) (w : World) : Except Fault Progress × World → Prop
  | unannounced {e : Fault} {u : World} : r.announce w = (.error e, u) → Ran r w (.error e, u)
  | nameless {uri : String} {rest : Continuation} {e : Fault} {u v : World} :
      r.announce w = (.ok (uri, rest), u) → World.fetchSettings uri u = (.error e, v) →
      settled .settings (.error e : Except Fault Nat) = .error e → Ran r w (.error e, v)
  | refused {uri : String} {rest : Continuation} {f : Failure} {u v : World} :
      r.announce w = (.ok (uri, rest), u) → World.fetchSettings uri u = (.error (.failure f), v) →
      f.stage = .settings → Ran r w (Progress.ends (rest.resume (.error (.failure f)) v))
  | waits {uri : String} {rest : Continuation} {n : Nat} {u v : World} :
      r.announce w = (.ok (uri, rest), u) → World.fetchSettings uri u = (.ok n, v) →
      v.cache.outcome? n = none → Ran r w (.ok (.waiting n rest), v)
  | resumes {uri : String} {rest : Continuation} {n : Nat} {outcome : Resolution} {u v : World} :
      r.announce w = (.ok (uri, rest), u) → World.fetchSettings uri u = (.ok n, v) →
      v.cache.outcome? n = some outcome → Ran r w (Progress.ends (rest.resume outcome v))

theorem Progress.ends_apply (x : Act World Answer) (w : World) :
    (do return Progress.ended (← x)) w = Progress.ends (x w) := by
  rw [bind_apply]
  rcases x w with ⟨a, v⟩
  cases a <;> rfl

theorem Request.ran (r : Request) (w : World) : r.Ran w (r.run w) := by
  unfold Request.run
  rcases ha : r.announce w with ⟨_ | ⟨uri, rest⟩, u⟩
  · rw [bind_error ha]
    exact .unannounced ha
  · rw [bind_ok ha]
    dsimp only
    rcases hf : World.fetchSettings uri u with ⟨e | n, v⟩
    · have hr : recover .settings (World.fetchSettings uri) u =
          (settled .settings (.error e), v) := by rw [recover_apply, hf]
      cases hs : settled .settings (.error e : Except Fault Nat) with
      | error e' =>
        rw [hs] at hr
        rw [bind_error hr]
        obtain rfl : e = e' := by cases settled_error hs; rfl
        exact .nameless ha hf hs
      | ok o =>
        cases o with
        | ok n => cases settled_ok.1 hs
        | error f =>
          obtain ⟨he, hstage⟩ := settled_ok_error.1 hs
          cases he
          rw [hs] at hr
          rw [bind_ok hr]
          dsimp only
          rw [Progress.ends_apply]
          exact .refused ha hf hstage
    · have hr : recover .settings (World.fetchSettings uri) u = (.ok (.ok n), v) := by
        rw [recover_apply, hf]
        rfl
      rw [bind_ok hr]
      dsimp only
      rw [bind_ok (rfl : (MonadState.get : Act World World) v = (.ok v, v))]
      cases ho : v.cache.outcome? n with
      | none => exact .waits ha hf ho
      | some outcome =>
        dsimp only
        rw [Progress.ends_apply]
        exact .resumes ha hf ho

/-- A request moves as it does when it announces itself, when it asks for settings, and when it goes on
with those that the cache holds. -/
theorem Request.run_moves {R : World → World → Prop} (hR : Moving R) {r : Request} {w : World}
    (hannounce : R w (r.announce w).2) (hfetch : ∀ uri, Moves R (World.fetchSettings uri))
    (hresume : ∀ (rest : Continuation) outcome v, R w v →
      (∀ settings, outcome = .ok settings → ∃ uri u n, r.announce w = (.ok (uri, rest), u) ∧
        World.fetchSettings uri u = (.ok n, v) ∧ v.cache.outcome? n = some outcome) →
      R v (rest.resume outcome v).2) : R w (r.run w).2 := by
  have fetched : ∀ {uri rest u p}, r.announce w = (.ok (uri, rest), u) →
      World.fetchSettings uri u = p → R w p.2 := by
    intro uri rest u p ha hf
    rw [ha] at hannounce
    rw [← hf]
    exact hR.trans hannounce (hfetch uri u)
  generalize hp : r.run w = p
  have h := r.ran w
  rw [hp] at h
  cases h with
  | unannounced ha =>
    rw [ha] at hannounce
    exact hannounce
  | nameless ha hf _ => exact fetched ha hf
  | refused ha hf _ =>
    have hv := fetched ha hf
    exact hR.trans hv (hresume _ _ _ hv fun _ h => by cases h)
  | waits ha hf _ => exact fetched ha hf
  | resumes ha hf ho =>
    have hv := fetched ha hf
    exact hR.trans hv (hresume _ _ _ hv fun _ _ => ⟨_, _, _, ha, hf, ho⟩)

/-! ## Going on with the settings -/

/-- The message tells the client to apply edits. -/
def Message.applies : Message → Bool
  | .applyEdit _ _ _ => true
  | _ => false

/-- What the client is told to apply when a task ends. -/
def Continuation.told : Continuation → Except Fault Answer → List Message
  | .edits d _ _ (some label), .ok (.edits es) =>
    if es.isEmpty then [] else [.applyEdit label d.uri es]
  | _, _ => []

/-- The world after some messages have been sent. -/
def World.telling (w : World) (ms : List Message) : World :=
  { w with journal := { w.journal with sent := w.journal.sent ++ ms } }

theorem World.telling_nil (w : World) : w.telling [] = w := by
  simp [telling]

theorem Continuation.applies_of_mem_told {rest : Continuation} {result : Except Fault Answer}
    {m : Message} (h : m ∈ rest.told result) : m.applies = true := by
  unfold told at h
  split at h
  · split at h
    · cases h
    · rw [List.mem_singleton.1 h]
      rfl
  · cases h

theorem applyEdits_apply (d : Snapshot) (edits : List TextEdit) (path : String)
    (request : FormatRequest) (label : Option String) (w : World) :
    applyEdits d edits label w =
      (.ok (), w.telling ((Continuation.edits d path request label).told (.ok (.edits edits)))) := by
  cases label with
  | none => rw [show Continuation.told _ _ = [] from rfl, World.telling_nil]; rfl
  | some label =>
    simp only [applyEdits, Continuation.told]
    split
    · rw [World.telling_nil]; rfl
    · rfl

theorem Continuation.resume_edits (outcome : Resolution) (d : Snapshot) (path : String)
    (request : FormatRequest) (label : Option String) (w : World) :
    (Continuation.edits d path request label).resume outcome w =
      match Pipeline.complete World.collaborators d.text d path request outcome w with
      | (.ok result, v) =>
        (.ok (.edits (Pipeline.editsFor d result)), v.telling
          ((Continuation.edits d path request label).told
            (.ok (.edits (Pipeline.editsFor d result)))))
      | (.error e, v) => (.error e, v) := by
  simp only [resume]
  rcases h : Pipeline.complete World.collaborators d.text d path request outcome w with ⟨e | result, v⟩
  · rw [bind_error h]
  · rw [bind_ok h]
    dsimp only
    rw [bind_ok (applyEdits_apply d _ path request label v)]
    rfl

section
variable {M : Message → Prop} {L : Launch → Prop} {I : World → Prop} {P F : String → Prop}
  {outcome : Resolution} {w : World}

theorem Continuation.resume_told
    (h : ∀ settings, outcome = .ok settings → World.Formats M L I P F settings) (hw : I w)
    (rest : Continuation) : ∃ v, World.Frame M L w v ∧
      (rest.resume outcome w).2 = v.telling (rest.told (rest.resume outcome w).1) := by
  have hR := World.Frame.moving (M := M) (L := L)
  have quiet : ∀ rest : Continuation, World.Frame M L w (rest.resume outcome w).2 →
      (∀ a, rest.told a = []) → ∃ v, World.Frame M L w v ∧
        (rest.resume outcome w).2 = v.telling (rest.told (rest.resume outcome w).1) :=
    fun rest hm ht => ⟨_, hm, by rw [ht, World.telling_nil]⟩
  cases rest with
  | settings =>
    exact quiet _ (Moves.bind hR (.ofExcept hR _) (fun _ => .pure hR _) w) fun _ => rfl
  | engine path =>
    refine quiet _ ?_ fun _ => rfl
    refine (Runs.bind hR (.ofExcept hR (Q := fun a v => outcome = .ok a ∧ v = w) fun a ha => ⟨ha, rfl⟩)
      (Q := fun _ _ => True) ?_).moves
    rintro settings _ _ ⟨hs, rfl⟩
    refine .bind hR (Installation.reportedEngine_runs hR .weaken ((h settings hs).find path _ hw))
      fun e? _ _ _ => .pure hR trivial
  | text d path source request =>
    refine quiet _ ?_ fun _ => rfl
    exact (Runs.bind hR (.ofMoves (Pipeline.complete_frame h hw)) fun _ _ _ _ =>
      .pure hR (Q := fun _ _ => True) trivial).moves
  | edits d path request label =>
    have hframe : World.Frame M L w
        (Pipeline.complete World.collaborators d.text d path request outcome w).2 :=
      Pipeline.complete_frame h hw
    rw [resume_edits]
    revert hframe
    rcases Pipeline.complete World.collaborators d.text d path request outcome w with ⟨e | result, v⟩
    · intro hframe
      have htold : (edits d path request label).told (.error e) = [] := by cases label <;> rfl
      exact ⟨v, hframe, by dsimp only; rw [htold, World.telling_nil]⟩
    · intro hframe
      exact ⟨v, hframe, rfl⟩

theorem Continuation.resume_frame
    (h : ∀ settings, outcome = .ok settings → World.Formats M L I P F settings) (hw : I w)
    (hM : ∀ m, m.applies = true → M m) (rest : Continuation) :
    World.Frame M L w (rest.resume outcome w).2 := by
  obtain ⟨v, hframe, hv⟩ := resume_told h hw rest
  have hR := World.Frame.moving (M := M) (L := L)
  rw [hv]
  refine hR.trans hframe { hR.refl v with sent := ⟨_, rfl, ?_⟩ }
  exact fun m hm => hM m (applies_of_mem_told hm)

end

/-! ## The journal only grows -/

/-- The journal of the second world goes on where that of the first one stops. -/
structure World.Grows (w w' : World) : Prop where
  sent : w.journal.sent <+: w'.journal.sent
  launches : w.journal.launches <+: w'.journal.launches

theorem World.Grows.moving : Moving World.Grows where
  refl _ := ⟨List.prefix_refl _, List.prefix_refl _⟩
  trans h h' := ⟨h.sent.trans h'.sent, h.launches.trans h'.launches⟩

theorem World.Frame.grows {M : Message → Prop} {L : Launch → Prop} {w w' : World}
    (h : World.Frame M L w w') : World.Grows w w' :=
  ⟨h.sent.isPrefix, h.launches.isPrefix⟩

theorem Continuation.resume_grows (rest : Continuation) (outcome : Resolution) :
    Moves World.Grows (rest.resume outcome) := fun w =>
  (resume_frame (M := fun _ => True) (w := w)
    (fun settings _ => World.formats (fun _ => trivial) settings) trivial (fun _ _ => trivial)
    rest).grows

theorem Request.run_grows (r : Request) : Moves World.Grows r.run := by
  intro w
  have hR := World.Grows.moving
  have hannounce := r.announce_frame (M := fun _ => True) (L := fun _ => True) w
  refine r.run_moves hR hannounce.grows (fun uri => ?_) fun rest outcome v _ _ => ?_
  · exact World.fetchSettings_moves hR.refl uri fun _ _ => ⟨⟨_, rfl⟩, List.prefix_refl _⟩
  · exact rest.resume_grows outcome v

end FormatServer
