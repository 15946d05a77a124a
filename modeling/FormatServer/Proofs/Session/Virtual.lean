import FormatServer.Proofs.Session.Lookups
import FormatServer.Proofs.World.Overlooked

/-!
# Requests to format a virtual document

A document that is no file has its text formatted with the options of the client, and nothing is
asked about it as a file (`Call.Virtual`, `Launch.Virtual`). If its path is relative too, the files
make no difference but for the modules that are looked at (`GoesOnVirtual.overlooks`), least of all
those that the working directory happens to hold (`GoesOnVirtual.elsewhere`).
-/

set_option autoImplicit false

namespace FormatServer

open Act Installation

/-- A process that formatting a virtual document may start: one that prints a global root, one that
tells the languages of an engine, and one that formats with the options of the client. -/
inductive Launch.Virtual (text path : String) (request : FormatRequest) (settings : Settings) :
    Launch → Prop
  | root (manager : String) (arguments : List String) :
      Virtual text path request settings ⟨.manager manager arguments, none⟩
  | languages (e : Engine) (read : Option Json) : read = none ∨ read = some (.obj []) →
      Virtual text path request settings ⟨.node e.nodePath e.modulePath "getSupportInfo", read⟩
  | format (e : Engine) (parser : Json) (read : Option Json) :
      read = none ∨ read = some (.obj [("text", .str text),
        ("options", .obj (Options.merged path parser settings .missing request))]) →
      Virtual text path request settings ⟨.node e.nodePath e.modulePath "format", read⟩

/-- The document, the text and the request of a request to format. -/
def Request.formats? : Request → Option (Snapshot × String × FormatRequest)
  | .text d source request => some (d, source, request)
  | .edits d request _ => some (d, d.text, request)
  | _ => none

/-- What a request to format does that goes on from `w` with its settings, or without any. -/
structure GoesOnVirtual (rest : Continuation) (d : Snapshot) (path text : String)
    (request : FormatRequest) (outcome : Resolution) (w : World) : Prop where
  /-- With a note of every call it goes on as without, and the notes are these. -/
  calls : ∃ notes, Pipeline.complete World.collaborators.watched text d path request outcome (w, []) =
      ((Pipeline.complete World.collaborators text d path request outcome w).1,
        (Pipeline.complete World.collaborators text d path request outcome w).2, notes) ∧
    ∀ call ∈ notes, ∃ settings, outcome = .ok settings ∧ call.Virtual d text path request settings
  /-- It starts processes for nothing else. -/
  launches : Adds (fun l => ∃ settings, outcome = .ok settings ∧
      l.Virtual text path request settings)
    w.journal.launches (rest.resume outcome w).2.journal.launches
  /-- With a relative path it looks for modules where the settings, the package manager and the
  configuration say, and not near the path. -/
  places : Spelling.isAbsolute path = false → ∀ settings c, .ok c ∈ candidates w path settings →
    c.place = .named ∨ c.place = .global ∨ c.place = .bundled
  /-- With a relative path it does the same in another file system, if both have the same modules
  where it looks for them. -/
  overlooks : Spelling.isAbsolute path = false → ∀ files,
    (∀ settings, outcome = .ok settings → AgreeOnCandidates w files path settings) →
    w.Overlooks files (rest.resume outcome)
  /-- So it does whatever becomes of names in the working directory that are apart from the modules. -/
  elsewhere : Spelling.isAbsolute path = false → ∀ names files, w.files.SameBut names files →
    (∀ settings, outcome = .ok settings → ∀ c, .ok c ∈ candidates w path settings →
      w.files.Apart names c.modulePath) →
    w.Overlooks files (rest.resume outcome)

/-- What a request to format a text of a virtual document does. -/
structure FormatsVirtual (r : Request) (d : Snapshot) (text : String) (request : FormatRequest) :
    Prop where
  /-- Where the document has no path the request fails, and starts nothing. -/
  pathless : ∀ e w, d.path = .error e →
    (r.run w).1 = .error e ∧ (r.run w).2.journal.launches = w.journal.launches
  /-- It starts nothing before it goes on with its settings. -/
  launches : ∀ path w, d.path = .ok path →
    Adds (fun l => ∃ rest settings v, r.Arrives settings rest w v ∧
      l.Virtual text path request settings) w.journal.launches (r.run w).2.journal.launches
  /-- Neither does it read a file before. -/
  overlooks : ∀ path w files, d.path = .ok path → Spelling.isAbsolute path = false →
    (∀ rest settings v, r.Arrives settings rest w v → AgreeOnCandidates v files path settings) →
    w.Overlooks files r.run
  goesOn : ∀ uri rest path outcome w, r.announced = .ok (uri, rest) → d.path = .ok path →
    GoesOnVirtual rest d path text request outcome w

/-! ## Formatting and telling -/

/-- What is left to do of a request to format: it formats, and then starts nothing more. -/
structure Continuation.Formats (rest : Continuation) (d : Snapshot) (path text : String)
    (request : FormatRequest) (answer : Option String → Act World Answer) : Prop where
  resume : ∀ outcome, rest.resume outcome =
    Pipeline.complete World.collaborators text d path request outcome >>= answer
  launches : ∀ result w, (answer result w).2.journal.launches = w.journal.launches
  overlooks : ∀ result files w, World.Overlooks files w (answer result)

variable {r : Request} {d : Snapshot} {path text : String} {request : FormatRequest}

theorem Request.rest_formats (h : r.formats? = some (d, text, request)) {uri : String}
    {rest : Continuation} (ha : r.announced = .ok (uri, rest)) (hpath : d.path = .ok path) :
    ∃ answer, rest.Formats d path text request answer := by
  cases r with
  | settings uri => cases h
  | engine path => cases h
  | text d source request =>
    cases h
    rw [announced, hpath] at ha
    cases ha
    exact ⟨_, fun _ => rfl, fun _ _ => rfl, fun _ _ _ => rfl⟩
  | edits d request label =>
    cases h
    rw [announced, hpath] at ha
    cases ha
    have told (label : Option String) (edits : List TextEdit) :
        (∀ w, (applyEdits d edits label w).2.journal.launches = w.journal.launches) ∧
          ∀ files w, World.Overlooks files w (applyEdits d edits label) := by
      cases label with
      | none => exact ⟨fun _ => rfl, fun _ _ => rfl⟩
      | some label =>
        rw [applyEdits]
        split
        · exact ⟨fun _ => rfl, fun _ _ => rfl⟩
        · exact ⟨fun _ => rfl, fun _ _ => rfl⟩
    refine ⟨_, fun _ => rfl, fun result w => ?_, fun result files w => ?_⟩
    · rw [map_apply]
      exact (told label _).1 w
    · exact .bind ((told label _).2 files w) fun _ _ _ => .pure _

/-! ## Going on -/

theorem complete_virtual_frame (hd : d.isFile = false) (text path : String)
    (request : FormatRequest) (settings : Settings) :
    Moves (World.Frame (fun _ => True) (Launch.Virtual text path request settings))
      (Pipeline.complete World.collaborators text d path request (.ok settings)) := by
  have hR := World.Frame.moving (M := fun _ => True) (L := Launch.Virtual text path request settings)
  have hasks : MayAsk (fun _ => True) (Launch.Virtual text path request settings) :=
    ⟨fun _ => trivial, fun manager arguments _ _ => .root manager arguments⟩
  have hengine : Moves (World.Frame (fun _ => True) (Launch.Virtual text path request settings))
      (reportedEngine? path settings) := fun w =>
    (reportedEngine_runs (P := fun _ => True) hR .weaken
      ⟨find_frame (fun _ _ => hasks) w, fun _ _ _ _ => trivial⟩).moves
  intro w
  rw [Pipeline.complete_virtual hd text path request (LocalConfiguration.find_virtual hd settings w)]
  exact Pipeline.formatVirtual_moves hR logEntry_frame hengine
    (fun e => Engine.languageTable_frame fun read h => .languages e read h)
    (fun e parser => Engine.format_frame fun read h => .format e parser read h) d w

/-- With a note of every call the calls are seen to be those for a virtual document. -/
theorem complete_virtual_notes (hd : d.isFile = false) (text path : String) (request : FormatRequest)
    (outcome : Resolution) (w : World) :
    ∃ notes, Pipeline.complete World.collaborators.watched text d path request outcome (w, []) =
        ((Pipeline.complete World.collaborators text d path request outcome w).1,
          (Pipeline.complete World.collaborators text d path request outcome w).2, notes) ∧
      ∀ call ∈ notes, ∃ settings, outcome = .ok settings ∧
        call.Virtual d text path request settings := by
  obtain ⟨notes, hnotes⟩ :=
    Pipeline.complete_watched World.collaborators text d path request outcome w
  refine ⟨notes, hnotes, ?_⟩
  have hcalls := congrArg (·.2.2) hnotes
  dsimp only at hcalls
  rw [← hcalls]
  cases outcome with
  | ok settings =>
    have hlocal := LocalConfiguration.find_virtual hd settings w
    exact fun call hcall => ⟨settings, rfl, Pipeline.complete_virtual_calls hd text path request
      (c := World.collaborators) hlocal call hcall⟩
  | error e =>
    rw [Pipeline.complete_error_calls _ fun _ _ _ => rfl]
    exact fun call hcall => absurd hcall List.not_mem_nil

theorem complete_virtual_launches (hd : d.isFile = false) (text path : String)
    (request : FormatRequest) (outcome : Resolution) (w : World) :
    Adds (fun l => ∃ settings, outcome = .ok settings ∧ l.Virtual text path request settings)
      w.journal.launches
      (Pipeline.complete World.collaborators text d path request outcome w).2.journal.launches := by
  cases outcome with
  | ok settings =>
    exact (complete_virtual_frame hd text path request settings w).launches.mono
      fun l hl => ⟨settings, rfl, hl⟩
  | error e =>
    exact (Pipeline.complete_error_moves (World.Frame.moving (M := fun _ => True)) logEntry_frame d e
      w).launches

theorem complete_virtual_overlooks (hd : d.isFile = false) (hpath : Spelling.isAbsolute path = false)
    {files : Files} {outcome : Resolution} {w : World}
    (h : ∀ settings, outcome = .ok settings → AgreeOnCandidates w files path settings)
    (text : String) (request : FormatRequest) :
    w.Overlooks files (Pipeline.complete World.collaborators text d path request outcome) := by
  cases outcome with
  | ok settings => exact Pipeline.complete_overlooks hd hpath (h settings rfl) text request
  | error e => exact Pipeline.complete_error_overlooks text d path request e

theorem goesOn_virtual (hd : d.isFile = false) {rest : Continuation}
    {answer : Option String → Act World Answer} (hrest : rest.Formats d path text request answer)
    (outcome : Resolution) (w : World) : GoesOnVirtual rest d path text request outcome w := by
  have overlooks (hpath : Spelling.isAbsolute path = false) (files : Files)
      (h : ∀ settings, outcome = .ok settings → AgreeOnCandidates w files path settings) :
      w.Overlooks files (rest.resume outcome) := by
    rw [hrest.resume]
    exact .bind (complete_virtual_overlooks hd hpath h text request) fun result v _ =>
      hrest.overlooks result files v
  exact {
    calls := complete_virtual_notes hd text path request outcome w
    launches := by
      have hcomplete := complete_virtual_launches hd text path request outcome w
      rw [hrest.resume, bind_apply]
      revert hcomplete
      rcases Pipeline.complete World.collaborators text d path request outcome w with ⟨e | result, v⟩
      · exact id
      · intro hcomplete
        show Adds _ _ (answer result v).2.journal.launches
        rwa [hrest.launches]
    places := fun hpath settings c => candidates_relative hpath w settings
    overlooks
    elsewhere := fun hpath names files hsame hapart => overlooks hpath files fun settings ho c hc =>
      Files.agreeBelow_of_sameBut hsame (hapart settings ho c hc) }

/-! ## The whole request -/

theorem Request.announce_overlooks (r : Request) (files : Files) (w : World) :
    World.Overlooks files w r.announce := by
  have announce (d : Snapshot) (f : String → Continuation) : World.Overlooks files w
      (do return (d.uri, f (← Pipeline.announce World.collaborators d)) : Act World _) :=
    .bind (.bind (logEntry_overlooks _) fun _ _ _ => .ofExcept _) fun _ _ _ => .pure _
  cases r with
  | settings uri => exact .pure _
  | engine path => exact .bind (.ofExcept _) fun _ _ _ => .pure _
  | text d source request => exact announce d fun path => .text d path source request
  | edits d request label => exact announce d fun path => .edits d path request label

/-- A request overlooks files that it overlooks once it goes on. -/
theorem Request.run_overlooks {r : Request} {files : Files} {w : World}
    (h : ∀ uri rest outcome v, r.announced = .ok (uri, rest) →
      (∀ settings, outcome = .ok settings → r.Arrives settings rest w v) →
      World.Overlooks files v (rest.resume outcome)) : World.Overlooks files w r.run := by
  unfold Request.run
  refine .bind (r.announce_overlooks files w) fun p u hannounce => ?_
  obtain ⟨uri, rest⟩ := p
  have hannounced : r.announced = .ok (uri, rest) := announced_of_announce hannounce
  refine .bind (.recover (fetchSettings_overlooks uri) .settings) fun fetched v hfetched => ?_
  cases fetched with
  | error f =>
    exact .bind (h uri rest _ v hannounced fun _ ho => by cases ho) fun _ _ _ => .pure _
  | ok n =>
    refine .get rfl ?_
    cases ho : v.cache.outcome? n with
    | none => exact .pure _
    | some outcome =>
      rw [recover_apply, Prod.mk.injEq] at hfetched
      obtain ⟨hn, hv⟩ := hfetched
      refine .bind (h uri rest outcome v hannounced fun settings hs => ?_) fun _ _ _ => .pure _
      exact ⟨uri, u, n, hannounce, Prod.ext (settled_ok.1 hn) hv, hs ▸ ho⟩

theorem Request.announced_pathless (h : r.formats? = some (d, text, request)) {e : Fault}
    (hpath : d.path = .error e) : r.announced = .error e := by
  cases r with
  | settings uri => cases h
  | engine path => cases h
  | text d source request =>
    cases h
    rw [announced, hpath]
    rfl
  | edits d request label =>
    cases h
    rw [announced, hpath]
    rfl

/-- A request to format a virtual document asks nothing about a file, takes its options from the
settings of the client alone, and overlooks whatever files its modules are apart from if its path is
relative. -/
theorem Request.virtual_formatted (h : r.formats? = some (d, text, request))
    (hd : d.isFile = false) : FormatsVirtual r d text request where
  pathless e w hpath := by
    have hfst := r.announce_fst w
    rw [r.announced_pathless h hpath] at hfst
    have hlaunches := (r.announce_frame (M := fun _ => True) (L := fun _ => False) w).launches
    rcases hannounce : r.announce w with ⟨a, u⟩
    rw [hannounce] at hfst hlaunches
    cases hfst
    rw [Request.run, bind_error hannounce]
    exact ⟨rfl, hlaunches.eq_self⟩
  launches path w hpath := by
    have hR : Moving fun u v : World => Adds (fun l => ∃ rest settings v',
        r.Arrives settings rest w v' ∧ l.Virtual text path request settings)
        u.journal.launches v.journal.launches :=
      ⟨fun _ => .nothing, .trans⟩
    refine r.run_moves hR (r.announce_frame (M := fun _ => True) w).launches
      (fun uri => World.fetchSettings_moves hR.refl uri fun _ _ => .nothing) ?_
    intro rest outcome v _ harrives
    cases outcome with
    | error e =>
      have hframe : World.Frame (fun _ => True) (fun _ => False) v (rest.resume (.error e) v).2 :=
        rest.resume_frame (I := fun _ => True) (P := fun _ => True) (F := fun _ => True)
          (fun _ ho => by cases ho) trivial fun _ _ => trivial
      exact hframe.launches.mono fun _ => False.elim
    | ok settings =>
      obtain ⟨uri, u, n, hannounce, hfetch, ho⟩ := harrives settings rfl
      obtain ⟨answer, hrest⟩ := rest_formats h (announced_of_announce hannounce) hpath
      refine (goesOn_virtual hd hrest (.ok settings) v).launches.mono fun l hl => ?_
      obtain ⟨_, hsettings, hvirtual⟩ := hl
      cases hsettings
      exact ⟨rest, settings, v, ⟨uri, u, n, hannounce, hfetch, ho⟩, hvirtual⟩
  overlooks path w files hpath hrelative hagree := by
    refine run_overlooks fun uri rest outcome v hannounced harrives => ?_
    obtain ⟨answer, hrest⟩ := rest_formats h hannounced hpath
    exact (goesOn_virtual hd hrest outcome v).overlooks hrelative files fun settings ho =>
      hagree rest settings v (harrives settings ho)
  goesOn uri rest path outcome w hannounced hpath := by
    obtain ⟨answer, hrest⟩ := rest_formats h hannounced hpath
    exact goesOn_virtual hd hrest outcome w

/-- A formatter for one language, which makes `b` of every text. -/
def languageReply (started : List Command) : Command → Reply
  | .node _ _ "getSupportInfo" =>
    .finished ("\x7b\"result\":\x7b\"languages\":[\x7b\"name\":\"JavaScript\"," ++
      "\"parsers\":[\"babel\"],\"vscodeLanguageIds\":[\"javascript\"]\x7d]\x7d\x7d").toUTF8.toList [] 0
  | command => Session.formatterReply started command

theorem Request.virtual_formatted_untitled :
    let d : Snapshot := { uri := "untitled:Untitled-1", text := "a", languageId := "javascript" }
    let installed := (Session.bundledSession []).world
    let w : World := { installed with
      files := { installed.files with workingDirectory := ["cwd"] }
      processes := ⟨languageReply, []⟩, trusted := true }
    let files := (w.files.write "/cwd/node_modules/prettier/package.json" (.file [])).write
      "/cwd/.prettierignore" (.file [])
    let answer := (Continuation.edits d "Untitled-1" {} none).resume (.ok {})
    d.isFile = false ∧ (answer w).2.journal.launches.length = 2 ∧
      answer { w with files } = ((answer w).1, { (answer w).2 with files }) := by
  intro d installed w files answer
  have hd : d.isFile = false := by decide
  have hpath : d.path = .ok "Untitled-1" := by decide +kernel
  have hannounced : (Request.edits d {} none).announced =
      .ok (d.uri, .edits d "Untitled-1" {} none) := by
    rw [Request.announced, hpath]
    rfl
  have hsame : w.files.SameBut ["node_modules", ".prettierignore"] files :=
    (Files.write_sameBut (by decide +kernel) _).trans (Files.write_sameBut (by decide +kernel) _)
  have hcandidates : candidates w "Untitled-1" {} = [.ok ⟨.bundled, "/b"⟩] := rfl
  have hapart : w.files.Apart ["node_modules", ".prettierignore"] "/b" :=
    ⟨by decide +kernel, by decide +kernel, by decide +kernel, by decide +kernel⟩
  refine ⟨hd, by decide +kernel, ?_⟩
  have hgoes := (Request.virtual_formatted rfl hd).goesOn d.uri _ "Untitled-1" (.ok {}) w hannounced
    hpath
  refine hgoes.elsewhere (by decide +kernel) _ files hsame fun settings hs c hc => ?_
  cases hs
  rw [hcandidates, List.mem_singleton] at hc
  cases hc
  exact hapart
end FormatServer
