import FormatServer.Proofs.Installation.Manifest
import FormatServer.Proofs.Settings
import FormatServer.Proofs.SettingsCache
import FormatServer.Proofs.Workspace.Search
import FormatServer.Proofs.World.Frame

/-!
# Orderly surroundings

What a server may rely on: the client answers settings whose paths are texts
(`Json.IsTextual`), the engine prints objects with the results that its methods have
(`Reply.Orderly`), and folders have URIs. A world with such surroundings is orderly
(`World.Orderly`). Each part is read without a fault: settings (`resolve_orderly`), languages
(`tableOfEngine_orderly`) and folders (`containing_orderly`). Four faults are left that orderly
surroundings may cause, and three of them are a matter of files and processes (`World.Slips`):
a manifest ends in one of them (`readVersion_slips`), or a call (`resultOf_slips`), or a search
(`findUp_slips`).
-/

set_option autoImplicit false

namespace FormatServer

open Act

/-- What succeeds on every member of a list succeeds on the list. -/
theorem mapM_ok {α β : Type} {f : α → Except Fault β} {l : List α}
    (h : ∀ a ∈ l, ∃ b, f a = .ok b) : ∃ bs, l.mapM f = .ok bs := by
  induction l with
  | nil => exact ⟨[], rfl⟩
  | cons a l ih =>
    obtain ⟨b, hb⟩ := h a List.mem_cons_self
    obtain ⟨bs, hbs⟩ := ih fun a' ha' => h a' (List.mem_cons_of_mem a ha')
    exact ⟨b :: bs, by rw [List.mapM_cons, hb, hbs]; rfl⟩

theorem mapM_cons_ok {α β : Type} {f : α → Except Fault β} {a : α} {l : List α} {bs : List β}
    (h : (a :: l).mapM f = .ok bs) :
    ∃ b bs', f a = .ok b ∧ l.mapM f = .ok bs' ∧ bs = b :: bs' := by
  rw [List.mapM_cons] at h
  cases ha : f a with
  | error e => rw [ha] at h; cases h
  | ok b =>
    cases hl : l.mapM f with
    | error e => rw [ha, hl] at h; cases h
    | ok bs' =>
      rw [ha, hl] at h
      cases h
      exact ⟨b, bs', rfl, rfl, rfl⟩

/-- What succeeds on a list succeeds on every member. -/
theorem ok_of_mapM {α β : Type} {f : α → Except Fault β} {l : List α} {bs : List β}
    (h : l.mapM f = .ok bs) : ∀ a ∈ l, ∃ b, f a = .ok b := by
  induction l generalizing bs with
  | nil => exact fun _ ha => (nomatch ha)
  | cons a l ih =>
    obtain ⟨b, bs', ha, hl, -⟩ := mapM_cons_ok h
    exact List.forall_mem_cons.2 ⟨⟨b, ha⟩, ih hl⟩

/-- The results on a list are those on its members. -/
theorem mem_mapM {α β : Type} {f : α → Except Fault β} {l : List α} {bs : List β}
    (h : l.mapM f = .ok bs) {b : β} : b ∈ bs ↔ ∃ a ∈ l, f a = .ok b := by
  induction l generalizing bs with
  | nil =>
    cases h
    simp
  | cons a l ih =>
    obtain ⟨b', bs', ha, hl, rfl⟩ := mapM_cons_ok h
    simp only [List.mem_cons, ih hl, exists_eq_or_imp, ha, Except.ok.injEq]
    exact or_congr_left eq_comm

/-- What fails on a list fails on a member. -/
theorem mapM_error {α β : Type} {f : α → Except Fault β} {l : List α} {e : Fault}
    (h : l.mapM f = .error e) : ∃ a ∈ l, f a = .error e := by
  induction l with
  | nil => cases h
  | cons a l ih =>
    rw [List.mapM_cons] at h
    cases ha : f a with
    | error e' =>
      rw [ha] at h
      cases h
      exact ⟨a, .head _, ha⟩
    | ok b =>
      cases hl : l.mapM f with
      | ok bs =>
        rw [ha, hl] at h
        cases h
      | error e' =>
        rw [ha, hl] at h
        cases h
        obtain ⟨a', ha', h'⟩ := ih hl
        exact ⟨a', .tail _ ha', h'⟩

/-! ## Settings -/

/-- The value is a text, or counts as none. -/
def Json.Textual (v : Json) : Prop := v.truthy = true → ∃ s, v = .str s

/-- The keys of a payload that name a path or a package manager. -/
def Settings.nameKeys : List String := ["prettierPath", "configPath", "ignorePath", "packageManager"]

/-- The payload is one that a client should answer, and names paths and a package manager as texts. -/
structure Json.IsTextual (payload : Json) : Prop extends payload.IsSettings where
  names : ∀ key ∈ Settings.nameKeys, ∀ v, payload.get? key = some v → v.Textual

/-- An answer of the client is a failure, or a payload like that. -/
def SettingsCache.OrderlyAnswer (a : Except String Json) : Prop :=
  ∀ payload, a = .ok payload → payload.IsTextual

/-- The settings name paths and a package manager as texts. -/
structure Settings.Textual (settings : Settings) : Prop where
  prettierPath : ∀ v, settings.prettierPath = some v → ∃ s, v = .str s
  configPath : ∀ v, settings.configPath = some v → ∃ s, v = .str s
  ignorePath : settings.ignorePath.Textual
  packageManager : ∀ v, settings.packageManager = some v → ∃ s, v = .str s

/-- How a fetch should end: with such settings, or with the failure that is reported for it. -/
def SettingsCache.OrderlyOutcome : Resolution → Prop := EndsIn Settings.Textual (FailsAt .settings)

namespace Settings

theorem Textual.sanitized {settings : Settings} (h : settings.Textual) :
    settings.sanitized.Textual where
  prettierPath _ hv := by cases hv
  configPath _ hv := by cases hv
  ignorePath _ := ⟨_, rfl⟩
  packageManager := h.packageManager

/-- The settings that are read from a payload take names from it as they are. -/
theorem ofClient_names {payload : Json} {settings : Settings} (h : ofClient payload = .ok settings) :
    settings.prettierPath = chosen settings.raw "prettierPath" ∧
      settings.configPath = chosen settings.raw "configPath" ∧
      settings.ignorePath = (settings.raw.get? "ignorePath").getD (.str defaultIgnorePath) ∧
      settings.packageManager = chosen settings.raw "packageManager" := by
  unfold ofClient at h
  cases hfields : fieldsOf payload with
  | error e => rw [hfields] at h; cases h
  | ok fields =>
    rw [hfields] at h
    dsimp only [bind, Except.bind] at h
    cases hms : ((fields.get? "documentSelectors").getD .null).members? with
    | none => rw [hms] at h; cases h
    | some ms =>
      rw [hms] at h
      cases h
      exact ⟨rfl, rfl, rfl, rfl⟩

theorem ofClient_textual {payload : Json} (h : payload.IsTextual) :
    ∃ settings, ofClient payload = .ok settings ∧ settings.Textual := by
  obtain ⟨settings, hok, _, hraw⟩ := ofClient_isSettings h.toIsSettings
  obtain ⟨hprettier, hconfig, hignore, hmanager⟩ := ofClient_names hok
  have hchosen : ∀ key ∈ nameKeys, ∀ v, chosen settings.raw key = some v → ∃ s, v = .str s := by
    intro key hkey v hv
    obtain ⟨u, hu, huv⟩ := Option.bind_eq_some_iff.1 hv
    rw [hraw] at hu
    unfold Json.ifTruthy at huv
    split at huv <;> cases huv
    next ht => exact h.names key hkey _ hu ht
  refine ⟨settings, hok, ?_, ?_, ?_, ?_⟩
  · rw [hprettier]
    exact hchosen _ (by decide)
  · rw [hconfig]
    exact hchosen _ (by decide)
  · rw [hignore, hraw]
    cases hv : payload.get? "ignorePath" with
    | none => exact fun _ => ⟨_, rfl⟩
    | some v => exact h.names _ (by decide) v hv
  · rw [hmanager]
    exact hchosen _ (by decide)

end Settings

theorem SettingsCache.resolve_orderly {a : Except String Json} (ha : OrderlyAnswer a) (uri : String)
    (trusted : Bool) : OrderlyOutcome (resolve uri trusted a) := by
  cases a with
  | error reason => exact .error ⟨_, rfl, rfl⟩
  | ok payload =>
    obtain ⟨settings, hok, htextual⟩ := Settings.ofClient_textual (ha payload rfl)
    dsimp only [resolve]
    rw [hok]
    cases trusted with
    | true => exact .ok htextual
    | false => exact .ok htextual.sanitized

/-! ## Answers of the engine -/

theorem Json.members?_falsy {v : Json} (h : v.truthy = false) : v.members? = some [] := by
  cases v with
  | str s => simpa [members?, truthy] using h
  | arr items => simpa [members?, truthy] using h
  | obj fields => simpa [members?, truthy] using h
  | _ => simp [members?, h]

/-- The value is a text or a list, or counts as none. -/
def Json.Listed (v : Json) : Prop := v.truthy = false ∨ v.kind = .str ∨ v.kind = .arr

namespace Language

/-- The lists of a language. -/
def listKeys : List String := ["parsers", "extensions", "vscodeLanguageIds"]

/-- An entry for a language is left out, or has lists that can be gone through. -/
def OrderlyEntry (entry : Json) : Prop :=
  entry.truthy = false ∨ entry.kind = .obj ∧
    ∀ key ∈ listKeys, ∀ v, entry.get? key = some v → v.Listed

/-- The engine answers with no table of languages, or with a list of such entries. -/
def OrderlyTable (answer : Json) : Prop :=
  answer.truthy = false ∨ answer.kind = .obj ∧
    ∀ v, answer.get? "languages" = some v →
      v.truthy = false ∨ ∃ entries, v = .arr entries ∧ ∀ entry ∈ entries, OrderlyEntry entry

theorem members_listed {fields : Fields} {key : String}
    (h : ∀ v, fields.get? key = some v → v.Listed) : ∃ ms, members fields key = .ok ms := by
  unfold members
  cases hv : fields.get? key with
  | none => exact ⟨[], rfl⟩
  | some v =>
    rw [Option.getD_some]
    obtain ht | hk | hk := h v hv
    · exact ⟨[], by rw [Json.members?_falsy ht]⟩
    all_goals cases v <;> cases hk; exact ⟨_, rfl⟩

theorem ofEngine_orderly {entry : Json} (h : OrderlyEntry entry) (ht : entry.truthy = true) :
    ∃ l, ofEngine entry = .ok l := by
  obtain hfalsy | ⟨hkind, hlists⟩ := h
  · rw [ht] at hfalsy
    cases hfalsy
  cases entry <;> cases hkind
  next fields =>
    obtain ⟨parsers, hparsers⟩ := members_listed (hlists "parsers" (by decide))
    obtain ⟨extensions, hextensions⟩ := members_listed (hlists "extensions" (by decide))
    obtain ⟨ids, hids⟩ := members_listed (hlists "vscodeLanguageIds" (by decide))
    unfold ofEngine
    dsimp only
    rw [hparsers, hextensions, hids]
    exact ⟨_, rfl⟩

theorem tableOfEngine_orderly {answer : Json} (h : OrderlyTable answer) :
    ∃ table, tableOfEngine answer = .ok table := by
  unfold tableOfEngine
  cases ht : answer.truthy with
  | false => exact ⟨[], rfl⟩
  | true =>
    obtain ⟨hkind, hlanguages⟩ := h.resolve_left (by simp [ht])
    cases answer <;> cases hkind
    next fields =>
      obtain ⟨entries, hmembers, hentries⟩ : ∃ entries, members fields "languages" = .ok entries ∧
          ∀ entry ∈ entries, OrderlyEntry entry := by
        unfold members
        cases hv : Fields.get? fields "languages" with
        | none => exact ⟨[], rfl, fun _ h => by cases h⟩
        | some v =>
          rw [Option.getD_some]
          obtain hv | ⟨entries, rfl, hentries⟩ := hlanguages v hv
          · exact ⟨[], by rw [Json.members?_falsy hv], fun _ h => by cases h⟩
          · exact ⟨entries, rfl, hentries⟩
      show ∃ table, (do
        let entries ← members fields "languages"
        (entries.filter Json.truthy).mapM ofEngine) = .ok table
      rw [hmembers]
      refine mapM_ok fun entry hentry => ?_
      obtain ⟨hmem, htruthy⟩ := List.mem_filter.1 hentry
      exact ofEngine_orderly (hentries entry hmem) htruthy

end Language

/-- The engine says nothing of a file, or answers with an object. -/
def FileInfo.OrderlyAnswer (answer : Json) : Prop := answer.truthy = false ∨ answer.kind = .obj

theorem FileInfo.ofEngine_orderly {answer : Json} (h : OrderlyAnswer answer) :
    ∃ info, ofEngine answer = .ok info := by
  unfold ofEngine
  cases ht : answer.truthy with
  | false => exact ⟨{}, rfl⟩
  | true =>
    obtain hfalsy | hkind := h
    · rw [ht] at hfalsy
      cases hfalsy
    · cases answer <;> cases hkind
      exact ⟨_, rfl⟩

/-- What a method of the engine may come to. -/
def Engine.OrderlyResult (method : String) (result : Json) : Prop :=
  (method = "getFileInfo" → FileInfo.OrderlyAnswer result) ∧
    (method = "getSupportInfo" → Language.OrderlyTable result)

/-- What a process may print that has succeeded: a method of the engine but `format` an object with
its result, or else no JSON; a package manager UTF-8. -/
inductive Reply.Orderly (limits : Limits) : Command → Reply → Prop
  | notStarted {command : Command} {reason : String} : Orderly limits command (.notStarted reason)
  | malformed {command : Command} {reason : String} : Orderly limits command (.malformed reason)
  | failed {command : Command} {stdout stderr : List UInt8} {exitCode : Int} : exitCode ≠ 0 →
      Orderly limits command (.finished stdout stderr exitCode)
  | formatted {program : Json} {modulePath : String} {stdout stderr : List UInt8} {exitCode : Int} :
      Orderly limits (.node program modulePath "format") (.finished stdout stderr exitCode)
  | called {program : Json} {modulePath method : String} {stdout stderr : List UInt8}
      {exitCode : Int} :
      (∀ text v, Text.decode? stdout = some text → Json.Reader.read limits text = .ok v →
        v.kind = .obj ∧ Engine.OrderlyResult method ((v.get? "result").getD .null)) →
      Orderly limits (.node program modulePath method) (.finished stdout stderr exitCode)
  | printed {manager : String} {arguments : List String} {stdout stderr : List UInt8}
      {exitCode : Int} : (Text.decode? stdout).isSome = true →
      Orderly limits (.manager manager arguments) (.finished stdout stderr exitCode)

theorem Installation.printedRoot_orderly {manager : String} {arguments : List String}
    {limits : Limits} {stdout stderr : List UInt8}
    (h : Reply.Orderly limits (.manager manager arguments) (.finished stdout stderr 0))
    (below : Option String) : ∃ root?, printedRoot stdout below = .ok root? := by
  cases h with
  | failed h => exact absurd rfl h
  | printed h =>
    unfold printedRoot
    split
    · exact ⟨_, rfl⟩
    · obtain ⟨cs, hcs⟩ := Option.isSome_iff_exists.1 h
      rw [hcs]
      exact ⟨_, rfl⟩

/-! ## Folders -/

/-- The text is a URI. -/
def Uri.Parses (uri : String) : Prop := ∃ u, parse uri = .ok u

/-- Of folders with URIs one is found that contains a path, or none. -/
theorem Folder.containing_orderly {folders : List Folder} (h : ∀ f ∈ folders, Uri.Parses f.uri)
    (path : String) : ∃ found?, containing folders path = .ok found? := by
  have hroots : ∃ fs, folders.mapM withRoot = .ok fs := mapM_ok fun f hf => by
    obtain ⟨u, hu⟩ := h f hf
    unfold withRoot root? Uri.toPath
    rw [hu]
    exact ⟨_, rfl⟩
  obtain ⟨fs, hfs⟩ := hroots
  unfold containing rooted
  rw [hfs]
  exact ⟨_, rfl⟩

theorem Uri.parse_error {uri : String} {e : Fault} (h : parse uri = .error e) :
    e = .malformedUri := by
  unfold parse at h
  dsimp only at h
  split at h
  · cases h
    rfl
  · cases h

/-- The search for a folder fails only on a folder whose URI is none. -/
theorem Folder.containing_error {folders : List Folder} {path : String} {e : Fault}
    (h : containing folders path = .error e) :
    e = .malformedUri ∧ ∃ f ∈ folders, ¬ Uri.Parses f.uri := by
  unfold containing rooted at h
  cases hroots : folders.mapM withRoot with
  | ok fs => rw [hroots] at h; cases h
  | error e' =>
    rw [hroots] at h
    cases h
    obtain ⟨f, hf, hroot⟩ := mapM_error hroots
    unfold withRoot root? Uri.toPath at hroot
    cases hp : Uri.parse f.uri with
    | ok u => rw [hp] at hroot; cases hroot
    | error e' =>
      rw [hp] at hroot
      cases hroot
      refine ⟨Uri.parse_error hp, f, hf, ?_⟩
      rintro ⟨u, hu⟩
      rw [hp] at hu
      cases hu

theorem Workspace.resolve_error {home : String} {folders : List Folder} {file setting : String}
    {e : Fault} (h : resolve home folders file setting = .error e) :
    e = .malformedUri ∧ ∃ f ∈ folders, ¬ Uri.Parses f.uri := by
  unfold resolve at h
  split at h
  · cases h
  · cases hcontaining : Folder.containing folders file with
    | error e' =>
      rw [hcontaining] at h
      cases h
      exact Folder.containing_error hcontaining
    | ok found? =>
      rw [hcontaining] at h
      cases h

/-- So a path in the settings is resolved for a file, or there is nothing to resolve it against. -/
theorem Workspace.resolve_orderly {folders : List Folder} (h : ∀ f ∈ folders, Uri.Parses f.uri)
    (home file setting : String) : ∃ resolved?, resolve home folders file setting = .ok resolved? := by
  unfold resolve
  split
  · exact ⟨_, rfl⟩
  · obtain ⟨found?, hfound⟩ := Folder.containing_orderly h file
    rw [hfound]
    exact ⟨_, rfl⟩

/-! ## Faults that slip -/

/-- The processes may reply so to a command. -/
def World.Replies (w : World) (command : Command) (reply : Reply) : Prop :=
  ∃ started, w.processes.reply started command = reply

/-- The system refuses to look a path up or to take a command, or JSON that is read nests deeper than
is read: in a manifest, or in the output of a process. -/
inductive World.Slips (w : World) : Fault → Prop
  | refused {path : String} : w.files.refused path = true → Slips w .pathRefused
  | malformed {command : Command} {reason : String} : w.Replies command (.malformed reason) →
      Slips w (.commandMalformed reason)
  | manifest {modulePath : String} {text : List Char} {container : Json.Container} :
      Installation.manifestText? w.files modulePath = some text →
      Json.Reader.read w.limits text = .error (.tooDeep container) →
      Slips w (.nestedTooDeep container)
  | output {command : Command} {stdout stderr : List UInt8} {text : List Char}
      {container : Json.Container} : w.Replies command (.finished stdout stderr 0) →
      Text.decode? stdout = some text → Json.Reader.read w.limits text = .error (.tooDeep container) →
      Slips w (.nestedTooDeep container)

/-- A version is read, or a module is missing. -/
theorem Installation.readVersion_slips (w : World) (modulePath : String) :
    EndsIn (fun _ => True) (FailsOr .module w.Slips)
      (readVersion w.limits w.files modulePath) := by
  cases h : readVersion w.limits w.files modulePath with
  | ok version => exact .ok trivial
  | error e =>
    refine .error ?_
    cases readVersion_error_iff.1 h with
    | unreadable => exact .inl ⟨_, rfl, rfl⟩
    | foreign => exact .inl ⟨_, rfl, rfl⟩
    | overdeep text container htext hdeep => exact .inr (.manifest htext hdeep)

/-- A search finds a path or none. -/
theorem Workspace.findUp_slips (w : World) (name start : String) (stop : Option String) :
    EndsIn (fun _ => True) w.Slips (findUp w.files name start stop) := by
  cases h : findUp w.files name start stop with
  | ok found? => exact .ok trivial
  | error e =>
    obtain ⟨_, _, _, _, -, hexists⟩ := firstExisting_eq_error.1 h
    obtain ⟨hrefused, rfl⟩ := Files.exists?_eq_error.1 hexists
    exact .error (.refused hrefused)

/-- A method but `format` comes to what it may come to, or to a failure of the engine. -/
theorem Engine.resultOf_slips {w : World} {e : Engine} {program : Json} {modulePath method : String}
    {stdout stderr : List UInt8} {exitCode : Int} (hmethod : method ≠ "format")
    (hreplies : w.Replies (.node program modulePath method) (.finished stdout stderr exitCode))
    (h : Reply.Orderly w.limits (.node program modulePath method)
      (.finished stdout stderr exitCode)) :
    EndsIn (OrderlyResult method) (FailsOr .engine w.Slips)
      (e.resultOf w.limits method stdout stderr exitCode) := by
  unfold resultOf
  dsimp only
  split
  · exact .error (.inl ⟨_, rfl, rfl⟩)
  · next hexit =>
    cases h with
    | failed hfailed => exact absurd hfailed hexit
    | formatted => exact absurd rfl hmethod
    | called hread =>
      cases htext : Text.decode? stdout with
      | none => exact .error (.inl ⟨_, rfl, rfl⟩)
      | some text =>
        rw [Option.elim_some]
        cases hv : Json.Reader.read w.limits text with
        | error refusal =>
          cases refusal with
          | malformed => exact .error (.inl ⟨_, rfl, rfl⟩)
          | tooDeep container =>
            rw [not_not.1 hexit] at hreplies
            exact .error (.inr (.output hreplies htext hv))
        | ok v =>
          obtain ⟨hkind, hresult⟩ := hread text v htext hv
          cases v <;> cases hkind
          exact .ok hresult

/-! ## The world -/

/-- The client answers no fetch with anything else than is orderly. -/
def Client.Orderly (client : Client) : Prop :=
  ∀ n uri a, client.settings n uri = .answered a → SettingsCache.OrderlyAnswer a

/-- What surrounds a server is orderly, and so is what it has fetched. -/
structure World.Orderly (w : World) : Prop where
  client : w.client.Orderly
  replies : ∀ started command, Reply.Orderly w.limits command (w.processes.reply started command)
  bundled : w.config.bundledPrettierPath.Textual
  folders : ∀ f ∈ w.folders, Uri.Parses f.uri
  cache : w.cache.Every SettingsCache.OrderlyOutcome

/-- A world is orderly that has been given the same as an orderly one, if what it has fetched is. -/
theorem World.Orderly.ofGiven {w w' : World} (hw : w.Orderly) (h : w'.given = w.given)
    (hcache : w'.cache.Every SettingsCache.OrderlyOutcome) : w'.Orderly := by
  obtain ⟨-, -, hclient, hprocesses, hlimits, -, hconfig, -, hfolders, -⟩ := World.mk.inj h
  obtain ⟨hreply, -⟩ := Processes.mk.inj hprocesses
  refine ⟨?_, ?_, ?_, ?_, hcache⟩
  · rw [hclient]
    exact hw.client
  · rw [hreply, hlimits]
    exact hw.replies
  · rw [hconfig]
    exact hw.bundled
  · rw [hfolders]
    exact hw.folders

/-- What a server finds and does leaves its surroundings orderly. -/
theorem World.Frame.orderly {M : Message → Prop} {L : Launch → Prop} {w w' : World}
    (h : World.Frame M L w w') (hw : w.Orderly) : w'.Orderly :=
  hw.ofGiven h.given (by rw [h.cache]; exact hw.cache)

/-- The world is orderly and has been given what another one has. -/
structure World.Within (g w : World) : Prop where
  orderly : w.Orderly
  given : w.given = g.given

/-- The same faults slip in worlds that have been given the same. -/
theorem World.Slips.ofGiven {g w : World} (h : w.given = g.given) {e : Fault} (he : w.Slips e) :
    g.Slips e := by
  obtain ⟨hfiles, -, -, hprocesses, hlimits, -⟩ := World.mk.inj h
  obtain ⟨hreply, -⟩ := Processes.mk.inj hprocesses
  cases he with
  | refused hrefused => exact .refused (hfiles ▸ hrefused)
  | malformed hreplies =>
    rw [Replies, hreply] at hreplies
    exact .malformed hreplies
  | manifest htext hread => exact .manifest (hfiles ▸ htext) (hlimits ▸ hread)
  | output hreplies htext hread =>
    rw [Replies, hreply] at hreplies
    exact .output hreplies htext (hlimits ▸ hread)

end FormatServer
