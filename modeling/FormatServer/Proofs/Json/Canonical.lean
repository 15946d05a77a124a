import FormatServer.Proofs.Json.Limits
import FormatServer.Proofs.Json.Order
import FormatServer.Proofs.Json.Scalar

/-!
# The canonical text is canonical

Plain values have the same text exactly if they are equal up to the order of keys, the text is read
back as such a value, and it is printable ASCII and line breaks (`Canonical.render_canonical`).

The text of a value is that of the value with its keys sorted (`renderAt_ordered`). Conversely the
reader finds the value with its keys sorted in the text (`Plain.readsBack`), whatever follows; so
equal texts come of values that are equal once sorted. The reader goes as deep as it has room and
takes integers of so many digits, and a value that fits into these limits (`Json.Fits`) is read.
-/

set_option autoImplicit false

namespace FormatServer.Json

open Reader Canonical

/-! ## The text of a container -/

/-- A field on its line. -/
def entry (level : Nat) (f : String × Json) : List Char :=
  Canonical.text f.1 ++ ':' :: ' ' :: renderAt level f.2

theorem renderItems_eq_map (level : Nat) : ∀ items : List Json,
    renderItems level items = items.map (renderAt level)
  | [] => rfl
  | v :: vs => congrArg (renderAt level v :: ·) (renderItems_eq_map level vs)

theorem renderFields_eq_map (level : Nat) : ∀ fields : Fields,
    renderFields level fields = fields.map fun f => (f.1, renderAt level f.2)
  | [] => rfl
  | (k, v) :: fs => congrArg ((k, renderAt level v) :: ·) (renderFields_eq_map level fs)

theorem renderAt_arr (level : Nat) (items : List Json) : renderAt level (.arr items) =
    block '[' ']' level (items.map (renderAt (level + 1))) := by
  rw [renderAt, renderItems_eq_map]

theorem renderAt_obj (level : Nat) (fields : Fields) : renderAt level (.obj fields) =
    block '\x7b' '\x7d' level ((sortByKey fields).map (entry (level + 1))) := by
  rw [renderAt, renderFields_eq_map, sortByKey_map, List.map_map]
  rfl

/-- The order of keys does not show in the text. -/
theorem renderAt_ordered {v : Json} (h : v.Plain) : ∀ level : Nat,
    renderAt level v.ordered = renderAt level v := by
  induction h with
  | null | bool | int | str => exact fun _ => rfl
  | arr plain ih =>
    intro level
    rw [ordered_arr, renderAt_arr, renderAt_arr, List.map_map]
    exact congrArg _ (List.map_congr_left fun v hv => ih v hv (level + 1))
  | obj distinct plain ih =>
    intro level
    rw [ordered_obj, renderAt_obj, renderAt_obj, sortByKey_sortByKey, sortByKey_map, List.map_map]
    refine congrArg _ (List.map_congr_left fun f hf => ?_)
    exact congrArg (Canonical.text f.1 ++ ':' :: ' ' :: ·) (ih f (mem_sortByKey.1 hf) (level + 1))

/-! ## Blanks between tokens -/

/-- A text that begins with a token which closes no list. -/
def Opens (cs : List Char) : Prop := ∃ c r, cs = c :: r ∧ isBlank c = false ∧ c ≠ ']'

theorem skipBlanks_cons {c : Char} (h : isBlank c = false) (cs : List Char) :
    skipBlanks (c :: cs) = c :: cs := by
  rw [skipBlanks, List.dropWhile_cons_of_neg (Bool.eq_false_iff.1 h)]

theorem skipBlanks_newline (level : Nat) (cs : List Char) :
    skipBlanks (newline level ++ cs) = skipBlanks cs :=
  List.dropWhile_append_of_pos (List.forall_mem_cons.2
    ⟨rfl, fun _ hc => List.eq_of_mem_replicate hc ▸ rfl⟩)

theorem Opens.skipBlanks_append {cs : List Char} (h : Opens cs) (rest : List Char) :
    skipBlanks (cs ++ rest) = cs ++ rest := by
  obtain ⟨c, r, rfl, hblank, -⟩ := h
  exact skipBlanks_cons hblank (r ++ rest)

theorem digit_ne {d : Char} (h : d.isDigit = true) :
    d ≠ '"' ∧ d ≠ '[' ∧ d ≠ '\x7b' ∧ d ≠ '-' := by
  refine ⟨?_, ?_, ?_, ?_⟩ <;> (rintro rfl; revert h; decide)

theorem opens_digits {ds : List Char} (hne : ds ≠ []) (h : ∀ d ∈ ds, d.isDigit = true) :
    Opens ds := by
  obtain ⟨d, ds, rfl⟩ := List.exists_cons_of_ne_nil hne
  have hd : d.isDigit = true := h d List.mem_cons_self
  refine ⟨d, ds, rfl, ?_, by rintro rfl; revert hd; decide⟩
  refine Bool.eq_false_iff.2 fun hblank => ?_
  simp only [isBlank, Bool.or_eq_true, decide_eq_true_eq] at hblank
  obtain ((rfl | rfl) | rfl) | rfl := hblank <;> (revert hd; decide)

theorem opens_renderAt {v : Json} (h : v.Plain) (level : Nat) : Opens (renderAt level v) := by
  cases h with
  | null => exact ⟨'n', _, rfl, rfl, by decide⟩
  | bool b =>
    cases b with
    | false => exact ⟨'f', _, rfl, rfl, by decide⟩
    | true => exact ⟨'t', _, rfl, rfl, by decide⟩
  | int n =>
    rw [renderAt, integer]
    split
    · exact ⟨'-', _, rfl, rfl, by decide⟩
    · exact opens_digits Nat.toDigits_ne_nil fun d hd => isDigit_of_mem_toDigits hd
  | str s => exact ⟨'"', _, rfl, rfl, by decide⟩
  | arr =>
    rw [renderAt_arr, block]
    split
    · exact ⟨'[', _, rfl, rfl, by decide⟩
    · exact ⟨'[', _, rfl, rfl, by decide⟩
  | obj =>
    rw [renderAt_obj, block]
    split
    · exact ⟨'\x7b', _, rfl, rfl, by decide⟩
    · exact ⟨'\x7b', _, rfl, rfl, by decide⟩

/-! ## One step of the reader -/

section Steps

variable {maxDigits room fuel : Nat} {cs r rest : List Char} {k : String} {v : Json}
  {vs : List Json} {fs : Fields}

theorem items_last (h : value maxDigits room fuel cs = .ok (v, r))
    (hr : skipBlanks r = ']' :: rest) :
    items maxDigits room (fuel + 1) cs = .ok ([v], rest) := by
  rw [items, h]
  simp only [bind, Except.bind, hr]
  rfl

theorem items_more {r' : List Char} (h : value maxDigits room fuel cs = .ok (v, r))
    (hr : skipBlanks r = ',' :: r')
    (hvs : items maxDigits room fuel (skipBlanks r') = .ok (vs, rest)) :
    items maxDigits room (fuel + 1) cs = .ok (v :: vs, rest) := by
  rw [items, h]
  simp only [bind, Except.bind, hr, hvs]
  rfl

theorem fields_last (h : value maxDigits room fuel (skipBlanks cs) = .ok (v, r))
    (hr : skipBlanks r = '\x7d' :: rest) :
    fields maxDigits room (fuel + 1) (Canonical.text k ++ ':' :: cs) = .ok ([(k, v)], rest) := by
  obtain ⟨cs', hcs, htext⟩ := text?_text k (':' :: cs)
  rw [hcs, fields, htext]
  simp only [bind, Except.bind, found, Option.elim_some, skipBlanks_cons (c := ':') rfl, h, hr]
  rfl

theorem fields_more {r' : List Char} (h : value maxDigits room fuel (skipBlanks cs) = .ok (v, r))
    (hr : skipBlanks r = ',' :: r')
    (hfs : fields maxDigits room fuel (skipBlanks r') = .ok (fs, rest)) :
    fields maxDigits room (fuel + 1) (Canonical.text k ++ ':' :: cs) =
      .ok ((k, v) :: fs, rest) := by
  obtain ⟨cs', hcs, htext⟩ := text?_text k (':' :: cs)
  rw [hcs, fields, htext]
  simp only [bind, Except.bind, found, Option.elim_some, skipBlanks_cons (c := ':') rfl, h, hr, hfs]
  rfl

theorem value_null (level : Nat) :
    value maxDigits room (fuel + 1) (renderAt level null ++ rest) = .ok (null, rest) := rfl

theorem value_bool (level : Nat) (b : Bool) :
    value maxDigits room (fuel + 1) (renderAt level (.bool b) ++ rest) = .ok (.bool b, rest) := by
  cases b <;> rfl

theorem value_str (s : String) :
    value maxDigits room (fuel + 1) (Canonical.text s ++ rest) = .ok (.str s, rest) := by
  obtain ⟨cs, hcs, htext⟩ := text?_text s rest
  rw [hcs, value, htext]
  rfl

theorem value_integer {n : Int} (hdigits : digitCount n ≤ maxDigits) (h : Ends rest) :
    value maxDigits room (fuel + 1) (integer n ++ rest) = .ok (.int n, rest) := by
  unfold integer
  split
  · next hn =>
    rw [List.cons_append, value, number?_toDigits true hdigits h]
    have hvalue : -(n.natAbs : Int) = n := by omega
    rw [if_pos rfl, hvalue]
    rfl
  · next hn =>
    have hnumber := number?_toDigits false hdigits h
    have hvalue : (n.natAbs : Int) = n := by omega
    cases hds : Nat.toDigits 10 n.natAbs with
    | nil => exact absurd hds Nat.toDigits_ne_nil
    | cons d ds =>
      have hd : d.isDigit = true := isDigit_of_mem_toDigits (hds ▸ List.mem_cons_self)
      obtain ⟨hquote, hbracket, hbrace, hminus⟩ := digit_ne hd
      rw [hds, if_neg (by decide), hvalue] at hnumber
      rw [List.cons_append] at hnumber ⊢
      rw [value, hnumber]
      · rfl
      all_goals simp_all

theorem value_arr_nil :
    value maxDigits (room + 1) (fuel + 1) ('[' :: ']' :: rest) = .ok (.arr [], rest) := rfl

/-- No item begins with a closing bracket. -/
theorem items_bracket : ∀ fuel : Nat, items maxDigits room fuel (']' :: r) = .error .malformed
  | 0 => rfl
  | 1 => rfl
  | _ + 2 => rfl

theorem value_arr (h : items maxDigits room fuel (skipBlanks r) = .ok (vs, rest)) :
    value maxDigits (room + 1) (fuel + 1) ('[' :: r) = .ok (.arr vs, rest) := by
  rw [value]
  split
  · next heq =>
    rw [heq, items_bracket] at h
    cases h
  · rw [h]
    rfl

theorem value_obj_nil :
    value maxDigits (room + 1) (fuel + 1) ('\x7b' :: '\x7d' :: rest) = .ok (.obj [], rest) := rfl

/-- No field begins with a closing brace. -/
theorem fields_brace : ∀ fuel : Nat, fields maxDigits room fuel ('\x7d' :: r) = .error .malformed
  | 0 => rfl
  | _ + 1 => rfl

theorem value_obj (h : fields maxDigits room fuel (skipBlanks r) = .ok (fs, rest))
    (distinct : fs.Distinct) :
    value maxDigits (room + 1) (fuel + 1) ('\x7b' :: r) = .ok (.obj fs, rest) := by
  rw [value]
  split
  · next heq =>
    rw [heq, fields_brace] at h
    cases h
  · rw [h]
    show Except.ok (Json.obj (Fields.ofPairs fs), rest) = _
    rw [Fields.ofPairs_of_distinct distinct]

end Steps

/-! ## Lines -/

section Lines

variable (level : Nat) (e e' : List Char) (es : List (List Char))

theorem lines_single : lines level [e] = newline level ++ e := rfl

theorem lines_more : lines level (e :: e' :: es) =
    newline level ++ e ++ ',' :: lines level (e' :: es) := rfl

theorem length_lt_lines_single : e.length < (lines level [e]).length := by
  rw [lines_single, newline, List.cons_append, List.length_cons, List.length_append]
  omega

theorem length_lt_lines_more : e.length < (lines level (e :: e' :: es)).length ∧
    (lines level (e' :: es)).length < (lines level (e :: e' :: es)).length := by
  rw [lines_more, newline]
  simp only [List.length_append, List.length_cons]
  omega

end Lines

theorem block_append {entries : List (List Char)} (h : entries ≠ []) (left right : Char)
    (level : Nat) (rest : List Char) : block left right level entries ++ rest =
      left :: (lines (level + 1) entries ++ (newline level ++ right :: rest)) := by
  rw [block, if_neg (by simpa using h)]
  simp only [List.cons_append, List.append_assoc, List.nil_append]

theorem length_lt_block {entries : List (List Char)} (h : entries ≠ []) (left right : Char)
    (level : Nat) :
    (lines (level + 1) entries).length + 1 < (block left right level entries).length := by
  rw [block, if_neg (by simpa using h)]
  simp only [List.cons_append, List.length_cons, List.length_append, List.length_nil]
  omega

/-- A reader of entries that goes past one entry in a call: to the end if the closing bracket
follows, and to the entries after a comma. -/
structure Passes {β : Type} (close : Char)
    (read : Nat → List Char → Except Refusal (List β × List Char)) (text : List Char) (b : β) :
    Prop where
  opens : Opens text
  last : ∀ {fuel : Nat} {r rest : List Char}, 2 * text.length ≤ fuel → Ends r →
    skipBlanks r = close :: rest → read (fuel + 1) (text ++ r) = .ok ([b], rest)
  more : ∀ {fuel : Nat} {r r' rest : List Char} {bs : List β}, 2 * text.length ≤ fuel → Ends r →
    skipBlanks r = ',' :: r' → read fuel (skipBlanks r') = .ok (bs, rest) →
    read (fuel + 1) (text ++ r) = .ok (b :: bs, rest)

/-- Entries are read from their lines, one call for each. -/
theorem read_lines {α β : Type} {close : Char} (hclose : isBlank close = false)
    {read : Nat → List Char → Except Refusal (List β × List Char)} {text : α → List Char}
    {result : α → β} (level outer : Nat) (rest : List Char) : ∀ {entries : List α} {fuel : Nat},
    entries ≠ [] → (∀ a ∈ entries, Passes close read (text a) (result a)) →
    2 * (lines level (entries.map text)).length ≤ fuel →
    read fuel (skipBlanks (lines level (entries.map text) ++
      (newline outer ++ close :: rest))) = .ok (entries.map result, rest)
  | [a], fuel, _, passes, hfuel => by
    have ha := passes a List.mem_cons_self
    have hlt := length_lt_lines_single level (text a)
    rw [List.map_cons, List.map_nil] at hfuel ⊢
    obtain ⟨fuel, rfl⟩ : ∃ f, fuel = f + 1 := ⟨fuel - 1, by omega⟩
    rw [lines_single, List.append_assoc, skipBlanks_newline, ha.opens.skipBlanks_append]
    refine ha.last (by omega) (ends_newline outer _) ?_
    rw [skipBlanks_newline, skipBlanks_cons hclose]
  | a :: a' :: as, fuel, _, passes, hfuel => by
    have ha := passes a List.mem_cons_self
    obtain ⟨hlt, hlts⟩ := length_lt_lines_more level (text a) (text a') (as.map text)
    rw [List.map_cons, List.map_cons] at hfuel ⊢
    obtain ⟨fuel, rfl⟩ : ∃ f, fuel = f + 1 := ⟨fuel - 1, by omega⟩
    have ih := read_lines hclose level outer rest (List.cons_ne_nil a' as)
      (fun b hb => passes b (.tail a hb)) (show _ ≤ fuel by rw [List.map_cons]; omega)
    rw [List.map_cons] at ih
    rw [lines_more, List.append_assoc, List.append_assoc, skipBlanks_newline,
      ha.opens.skipBlanks_append]
    exact ha.more (by omega) (ends_comma _) (skipBlanks_cons rfl _) ih

/-! ## Values read back -/

/-- The reader finds a value, its keys sorted, in its text. Two calls for a character are enough: a
value and the entry that it is in take one each. -/
def ReadsBack (maxDigits room : Nat) (v : Json) : Prop :=
  ∀ {level fuel : Nat} {rest : List Char}, 2 * (renderAt level v).length ≤ fuel → Ends rest →
    value maxDigits room fuel (renderAt level v ++ rest) = .ok (v.ordered, rest)

section Reading

variable {maxDigits room : Nat}

theorem passes_item {v : Json} (plain : v.Plain) (reads : ReadsBack maxDigits room v)
    (level : Nat) : Passes ']' (items maxDigits room) (renderAt level v) v.ordered where
  opens := opens_renderAt plain level
  last hfuel hends hr := items_last (reads hfuel hends) hr
  more hfuel hends hr hvs := items_more (reads hfuel hends) hr hvs

/-- The value of a field is read after its key and the blank behind the colon. -/
theorem value_entry {f : String × Json} (plain : f.2.Plain)
    (reads : ReadsBack maxDigits room f.2) {level fuel : Nat} {r : List Char}
    (hfuel : 2 * (entry level f).length ≤ fuel) (hends : Ends r) :
    ∃ cs, entry level f ++ r = Canonical.text f.1 ++ ':' :: cs ∧
      value maxDigits room fuel (skipBlanks cs) = .ok (f.2.ordered, r) := by
  have hopens := (opens_renderAt plain level).skipBlanks_append r
  refine ⟨' ' :: (renderAt level f.2 ++ r), by simp [entry], ?_⟩
  rw [entry, List.length_append, List.length_cons, List.length_cons] at hfuel
  exact (congrArg _ hopens).trans (reads (by omega) hends)

theorem passes_field {f : String × Json} (plain : f.2.Plain)
    (reads : ReadsBack maxDigits room f.2) (level : Nat) :
    Passes '\x7d' (fields maxDigits room) (entry level f) (f.1, f.2.ordered) where
  opens := ⟨'"', _, rfl, rfl, by decide⟩
  last hfuel hends hr := by
    obtain ⟨cs, hentry, hvalue⟩ := value_entry plain reads hfuel hends
    rw [hentry]
    exact fields_last hvalue hr
  more hfuel hends hr hfs := by
    obtain ⟨cs, hentry, hvalue⟩ := value_entry plain reads hfuel hends
    rw [hentry]
    exact fields_more hvalue hr hfs

/-- A text is never empty, so the reader has a call for it. -/
theorem readsBack_of_succ {v : Json} (h : v.Plain)
    (reads : ∀ {level fuel : Nat} {rest : List Char}, 2 * (renderAt level v).length ≤ fuel + 1 →
      Ends rest →
      value maxDigits room (fuel + 1) (renderAt level v ++ rest) = .ok (v.ordered, rest)) :
    ReadsBack maxDigits room v := by
  intro level fuel rest hfuel hends
  obtain ⟨c, r, htext, -, -⟩ := opens_renderAt h level
  cases fuel with
  | zero =>
    rw [htext, List.length_cons] at hfuel
    omega
  | succ fuel => exact reads hfuel hends

theorem readsBack_arr {items : List Json} (plain : ∀ v ∈ items, v.Plain)
    (reads : ∀ v ∈ items, ReadsBack maxDigits room v) :
    ReadsBack maxDigits (room + 1) (.arr items) := by
  refine readsBack_of_succ (.arr plain) fun {level fuel rest} hfuel _ => ?_
  rw [renderAt_arr] at hfuel ⊢
  rw [ordered_arr]
  by_cases hne : items = []
  · subst hne
    exact value_arr_nil
  · have hmap : items.map (renderAt (level + 1)) ≠ [] := mt List.map_eq_nil_iff.1 hne
    have hlt := length_lt_block hmap '[' ']' level
    have hpasses : ∀ v ∈ items, Passes ']' (Reader.items maxDigits room)
        (renderAt (level + 1) v) v.ordered := fun v hv =>
      passes_item (plain v hv) (reads v hv) (level + 1)
    have hitems := read_lines rfl (level + 1) level rest hne hpasses (show _ ≤ fuel by omega)
    rw [block_append hmap]
    exact value_arr hitems

theorem readsBack_obj {fields : Fields} (distinct : fields.Distinct)
    (plain : ∀ f ∈ fields, f.2.Plain) (reads : ∀ f ∈ fields, ReadsBack maxDigits room f.2) :
    ReadsBack maxDigits (room + 1) (.obj fields) := by
  refine readsBack_of_succ (.obj distinct plain) fun {level fuel rest} hfuel _ => ?_
  rw [renderAt_obj] at hfuel ⊢
  rw [ordered_obj]
  by_cases hne : sortByKey fields = []
  · rw [sortByKey_map, hne]
    exact value_obj_nil
  · have hmap : (sortByKey fields).map (entry (level + 1)) ≠ [] := mt List.map_eq_nil_iff.1 hne
    have hlt := length_lt_block hmap '\x7b' '\x7d' level
    have hpasses : ∀ f ∈ sortByKey fields, Passes '\x7d' (Reader.fields maxDigits room)
        (entry (level + 1) f) (f.1, f.2.ordered) := fun f hf =>
      passes_field (plain f (mem_sortByKey.1 hf)) (reads f (mem_sortByKey.1 hf)) (level + 1)
    have hfields := read_lines rfl (level + 1) level rest hne hpasses (show _ ≤ fuel by omega)
    rw [block_append hmap, sortByKey_map]
    exact value_obj hfields (distinct_orderedFields (distinct_sorted distinct))

/-- A plain value is read from its text, whatever follows. -/
theorem Plain.readsBack {v : Json} (h : v.Plain) :
    ∀ {room : Nat}, v.Fits maxDigits room → ReadsBack maxDigits room v := by
  induction h with
  | null => exact fun _ => readsBack_of_succ .null fun _ _ => value_null _
  | bool b => exact fun _ => readsBack_of_succ (.bool b) fun _ _ => value_bool _ b
  | int n =>
    refine fun fits => readsBack_of_succ (.int n) fun _ hends => ?_
    exact value_integer (fits.digits_le n (List.mem_singleton_self n)) hends
  | str s => exact fun _ => readsBack_of_succ (.str s) fun _ _ => value_str s
  | arr plain ih =>
    intro room fits
    obtain ⟨inner, rfl, hitems⟩ := fits.items
    exact readsBack_arr plain fun v hv => ih v hv (hitems v hv)
  | obj distinct plain ih =>
    intro room fits
    obtain ⟨inner, rfl, hfields⟩ := fits.fields
    exact readsBack_obj distinct plain fun f hf => ih f hf (hfields f hf)

end Reading

/-! ## Printable text -/

theorem printable_newline (level : Nat) : ∀ c ∈ newline level, Printable c :=
  List.forall_mem_cons.2 ⟨by decide, fun _ hc => List.eq_of_mem_replicate hc ▸ by decide⟩

theorem printable_lines (level : Nat) : ∀ {entries : List (List Char)},
    (∀ e ∈ entries, ∀ c ∈ e, Printable c) → ∀ c ∈ lines level entries, Printable c
  | [], _ => nofun
  | [e], h => by
    rw [lines_single]
    exact List.forall_mem_append.2 ⟨printable_newline level, h e List.mem_cons_self⟩
  | e :: e' :: es, h => by
    rw [lines_more, List.forall_mem_append, List.forall_mem_append, List.forall_mem_cons]
    exact ⟨⟨printable_newline level, h e List.mem_cons_self⟩, by decide,
      printable_lines level fun d hd => h d (.tail e hd)⟩

theorem printable_block {left right : Char} (hleft : Printable left) (hright : Printable right)
    (level : Nat) {entries : List (List Char)} (h : ∀ e ∈ entries, ∀ c ∈ e, Printable c) :
    ∀ c ∈ block left right level entries, Printable c := by
  unfold block
  split
  · exact List.forall_mem_cons.2 ⟨hleft, List.forall_mem_singleton.2 hright⟩
  · rw [List.cons_append, List.cons_append, List.forall_mem_cons, List.forall_mem_append,
      List.forall_mem_append]
    exact ⟨hleft, ⟨printable_lines (level + 1) h, printable_newline level⟩,
      List.forall_mem_singleton.2 hright⟩

theorem Plain.printable {v : Json} (h : v.Plain) :
    ∀ level : Nat, ∀ c ∈ renderAt level v, Printable c := by
  induction h with
  | null => exact fun _ => printable_of_all rfl
  | bool b =>
    cases b with
    | false => exact fun _ => printable_of_all rfl
    | true => exact fun _ => printable_of_all rfl
  | int n => exact fun _ => printable_integer n
  | str s => exact fun _ => printable_text s
  | arr plain ih =>
    intro level
    rw [renderAt_arr]
    refine printable_block (by decide) (by decide) level fun e he => ?_
    obtain ⟨v, hv, rfl⟩ := List.mem_map.1 he
    exact ih v hv (level + 1)
  | obj distinct plain ih =>
    intro level
    rw [renderAt_obj]
    refine printable_block (by decide) (by decide) level fun e he => ?_
    obtain ⟨f, hf, rfl⟩ := List.mem_map.1 he
    rw [entry, List.forall_mem_append, List.forall_mem_cons, List.forall_mem_cons]
    exact ⟨printable_text f.1, by decide, by decide, ih f (mem_sortByKey.1 hf) (level + 1)⟩

/-! ## Whole texts -/

theorem toList_spell (v : Json) : (spell v).toList = renderAt 0 v := String.toList_ofList

/-- The text of a value is read, and what is read is the value with its keys sorted. -/
theorem Plain.read_spell {v : Json} (h : v.Plain) {maxDigits room : Nat}
    (fits : v.Fits maxDigits room) :
    readUpTo maxDigits room (spell v).toList = .ok v.ordered := by
  have hopen := (opens_renderAt h 0).skipBlanks_append []
  have hread : value maxDigits room (2 * (renderAt 0 v).length + 2) (renderAt 0 v ++ []) =
      .ok (v.ordered, []) := h.readsBack fits (Nat.le_add_right _ 2) ends_nil
  rw [List.append_nil] at hopen hread
  rw [toList_spell, readUpTo, hopen, hread]
  rfl

namespace Canonical

/-- Values have the same text exactly if they are equal up to the order of keys. -/
theorem spell_eq_iff {u v : Json} (hu : u.Plain) (hv : v.Plain) :
    spell u = spell v ↔ u.Same v := by
  rw [← ordered_eq_iff hu hv]
  constructor
  · intro h
    -- Limits for the list of the two are limits for both.
    obtain ⟨maxDigits, hfits⟩ := exists_fits (.arr [u, v])
    obtain ⟨room, -, hfits⟩ := hfits.items
    have hread := hu.read_spell (hfits u (by simp))
    rw [h, hv.read_spell (hfits v (by simp))] at hread
    exact (Except.ok.inj hread).symm
  · intro h
    rw [spell, spell, ← renderAt_ordered hu, ← renderAt_ordered hv, h]

/-! ## Limits -/

section

variable {limits : Limits} {v : Json}

theorem render_eq_ok {t : String} :
    render limits v = .ok t ↔ v.Fits limits.digits limits.rendering ∧ t = spell v := by
  unfold render
  split
  · next h => simp [h, eq_comm]
  · next h => simp [h]

theorem render_eq_tooDeep : render limits v = .error .tooDeep ↔ limits.rendering < v.depth := by
  unfold render
  split
  · next h => simp [Nat.not_lt.2 h.depth_le]
  · simp

theorem render_eq_tooLong : render limits v = .error .tooLong ↔
    v.depth ≤ limits.rendering ∧ ∃ n ∈ v.integers, limits.digits < digitCount n := by
  unfold render
  split
  · next h =>
    refine iff_of_false nofun ?_
    rintro ⟨-, n, hn, hlong⟩
    exact Nat.not_lt.2 (h.digits_le n hn) hlong
  · next h =>
    by_cases hdepth : v.depth ≤ limits.rendering
    · refine iff_of_true (by rw [if_pos hdepth]) ⟨hdepth, ?_⟩
      by_contra hnone
      exact h ⟨hdepth, fun n hn => Nat.not_lt.1 fun hlong => hnone ⟨n, hn, hlong⟩⟩
    · simp [hdepth]

end

/-- The text of a value within limits is canonical. -/
structure IsCanonical (limits : Limits) (u : Json) : Prop where
  /-- A value within the limits has a text. -/
  rendered : (∃ s, render limits u = .ok s) ↔ u.Fits limits.digits limits.rendering
  /-- Another one has none because it is too deep, or because of an integer that is too long. -/
  tooDeep : render limits u = .error .tooDeep ↔ limits.rendering < u.depth
  tooLong : render limits u = .error .tooLong ↔
    u.depth ≤ limits.rendering ∧ ∃ n ∈ u.integers, limits.digits < digitCount n
  /-- No value is too deep or too long in itself: where there is room enough it has a text, which is
  read back. -/
  within : ∃ digits room, ∀ limits' : Limits, digits ≤ limits'.digits → room ≤ limits'.rendering →
    room ≤ limits'.reading →
    ∃ s w, render limits' u = .ok s ∧ Reader.read limits' s.toList = .ok w ∧ u.Same w
  /-- Two values have the same text exactly if they are equal up to the order of keys, whatever the
  limits were in which they were rendered. -/
  same : ∀ (v : Json) (limits' : Limits) (s t : String), v.Plain → render limits u = .ok s →
    render limits' v = .ok t → (s = t ↔ u.Same v)
  /-- The value is read back by every reader into whose limits it fits. -/
  read : ∀ (s : String) (limits' : Limits), render limits u = .ok s →
    u.Fits limits'.digits limits'.reading →
    ∃ w, Reader.read limits' s.toList = .ok w ∧ u.Same w
  /-- The text has line breaks and printable ASCII in it alone. -/
  printable : ∀ s, render limits u = .ok s → ∀ c ∈ s.toList, Printable c

end Canonical

end FormatServer.Json
