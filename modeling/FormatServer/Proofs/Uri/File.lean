import FormatServer.World
import FormatServer.Proofs.Uri.Percent

/-!
# The URIs of a file

Many URIs stand for one path (`Uri.Locates`). The path never has the shape of a drive
(`hasDrive_fileSystemPath`), so that it is written as two slashes and its encoding (`ofPath_eq`). That
is a URI which is cut nowhere (`parse_encoded`), and so stands for the path again (`written`). All of
them have the path as the key of their settings (`Locates.settingsKey`).
-/

set_option autoImplicit false

namespace FormatServer.Uri

/-- The URI is one of a file, and stands for a path that begins with exactly one slash. -/
structure Locates (uri path : String) : Prop where
  file : "file:".toList <+: uri.toList
  decoded : toPath uri = .ok path
  slash : ∃ cs, path.toList = '/' :: cs ∧ cs.head? ≠ some '/'

/-! ## Drives -/

theorem hasDrive_of_head {cs : List Char} (h : cs.head? ≠ some '/') : hasDrive cs = false := by
  unfold hasDrive
  split
  · exact absurd rfl h
  · rfl

theorem hasDrive_slashes (cs : List Char) : hasDrive ('/' :: '/' :: cs) = false := by
  unfold hasDrive
  split
  · next heq =>
    cases heq
    decide
  · rfl

theorem toLower_ne_slash {c : Char} (h : isLetter c = true) : c.toLower ≠ '/' := by
  unfold Char.toLower
  split
  · next hupper =>
    intro hslash
    have hval : c.val + 32 = 47 := congrArg Char.val hslash
    grind
  · rintro rfl
    cases h

/-- The path of a URI never has the shape of a drive: the slash before the drive is gone. -/
theorem hasDrive_fileSystemPath (u : Uri) : hasDrive u.fileSystemPath.toList = false := by
  unfold fileSystemPath
  split
  · rw [String.toList_ofList]
    exact hasDrive_slashes _
  split
  · next c r hpath =>
    split
    · next hletter =>
      rw [String.toList_ofList]
      exact hasDrive_of_head fun h => toLower_ne_slash hletter (Option.some.inj h)
    · next hletter =>
      rw [String.toList_ofList, hpath]
      exact eq_false_of_ne_true hletter
  · next hpath =>
    rw [String.toList_ofList, hasDrive]
    exact hpath

theorem hasDrive_toPath {uri path : String} (h : toPath uri = .ok path) :
    hasDrive path.toList = false := by
  unfold toPath at h
  cases hu : parse uri with
  | error e => rw [hu] at h; cases h
  | ok u =>
    rw [hu] at h
    cases h
    exact hasDrive_fileSystemPath u

theorem fileSystemPath_of_hasDrive {scheme path : List Char} (h : hasDrive path = false) :
    fileSystemPath ⟨scheme, [], path⟩ = String.ofList path := by
  unfold fileSystemPath
  split
  · next hhost => cases hhost
  split
  · next c r hpath =>
    dsimp only at hpath
    subst hpath
    exact if_neg (ne_true_of_eq_false h)
  · rfl

/-! ## Writing a path -/

variable {cs : List Char}

theorem encode_slash (cs : List Char) : encode ('/' :: cs) = '/' :: encode cs := rfl

theorem decode_slash (cs : List Char) : decode ('/' :: cs) = '/' :: decode cs := by
  have hbyte : unescape ('/' :: cs) = Text.utf8Bytes '/' ++ unescape cs :=
    unescape_cons (by decide) cs
  rw [decode, hbyte, Text.decodeLossy, Text.scan, Text.scanFrom_utf8Bytes]
  rfl

theorem encode_head (h : cs.head? ≠ some '/') : (encode cs).head? ≠ some '/' := by
  intro hslash
  obtain ⟨r, hr⟩ := List.head?_eq_some_iff.1 hslash
  have hcs := decode_encode cs
  rw [hr, decode_slash] at hcs
  exact h (by rw [← hcs]; rfl)

theorem hostAndPath_eq (h : cs.head? ≠ some '/') (hdrive : hasDrive ('/' :: cs) = false) :
    hostAndPath ('/' :: cs) = .ok ([], '/' :: cs) := by
  unfold hostAndPath
  split
  · next r heq =>
    cases heq
    exact absurd rfl h
  · have hslash : ('/' :: cs).head? = some '/' := rfl
    dsimp only [bind, Except.bind]
    rw [if_pos hslash]
    split
    · next c r heq =>
      rw [heq] at hdrive
      have hletter : isLetter c = false := hdrive
      rw [if_neg (ne_true_of_eq_false hletter)]
    · rfl

/-- A path that begins with one slash, and is no drive, is written behind two slashes. -/
theorem ofPath_eq {path : String} (hpath : path.toList = '/' :: cs) (h : cs.head? ≠ some '/')
    (hdrive : hasDrive ('/' :: cs) = false) :
    ofPath path = .ok (String.ofList ("file://".toList ++ '/' :: encode cs)) := by
  have hlocator : locator (encode []) (encodePath ('/' :: cs)) = '/' :: '/' :: '/' :: encode cs := by
    rw [encodePath, if_neg (ne_true_of_eq_false hdrive), encode_slash, locator, if_neg]
    · rfl
    · intro hslashes
      have hslash := of_decide_eq_true (Bool.and_eq_true_iff.1 hslashes).2
      cases hencode : encode cs with
      | nil => rw [hencode] at hslash; cases hslash
      | cons d r =>
        rw [hencode] at hslash
        cases hslash
        exact encode_head h (by rw [hencode]; rfl)
  unfold ofPath
  rw [hpath, hostAndPath_eq h hdrive]
  show Except.ok _ = _
  rw [hlocator]
  rfl

/-! ## Reading it back -/

theorem cut_of_not_mem {c : Char} (h : c ∉ cs) : Text.cut c cs = (cs, []) := by
  have hnone : Text.cut? c cs = none := by
    induction cs with
    | nil => rfl
    | cons d cs ih =>
      obtain ⟨hd, hcs⟩ := not_or.1 (mt List.mem_cons.2 h)
      rw [Text.cut?, if_neg (Ne.symm hd), ih hcs]
      rfl
  rw [Text.cut, hnone]
  rfl

theorem plain_visible {c : Char} (h : isPlain c = true) :
    0x20 < c.toNat ∧ c ≠ '?' ∧ c ≠ '#' := by
  have hvisible : ∀ n < 0x80, isPlain (Char.ofNat n) = true →
      0x20 < n ∧ Char.ofNat n ≠ '?' ∧ Char.ofNat n ≠ '#' := by decide +kernel
  have hascii : c.toNat < 0x80 := by
    obtain h | h := Bool.or_eq_true_iff.1 h
    · rw [eq_of_beq h]
      decide
    · exact of_decide_eq_true (Bool.and_eq_true_iff.1 h).1
  have hc := hvisible c.toNat hascii
  rw [Char.ofNat_toNat] at hc
  exact hc h

theorem clean_of_visible (h : ∀ c ∈ cs, 0x20 < c.toNat) : clean cs = cs := by
  have hfilter : ∀ c ∈ cs, decide (c ≠ '\t' ∧ c ≠ '\n' ∧ c ≠ '\r') = true := by
    refine fun c hc => decide_eq_true ⟨?_, ?_, ?_⟩ <;> rintro rfl <;> exact absurd (h _ hc) (by decide)
  have hdrop : cs.dropWhile (fun c => decide (c.toNat ≤ 0x20)) = cs := by
    cases cs with
    | nil => rfl
    | cons c cs =>
      exact List.dropWhile_cons_of_neg (by simpa using h c (.head _))
  rw [clean, hdrop, List.filter_eq_self.2 hfilter]

/-- A path that has been encoded is cut nowhere. -/
theorem parse_encoded (cs : List Char) :
    parse (String.ofList ("file://".toList ++ '/' :: encode cs)) =
      .ok ⟨"file".toList, [], '/' :: cs⟩ := by
  have hplain : ∀ c ∈ '/' :: encode cs, isPlain c = true :=
    List.forall_mem_cons.2 ⟨rfl, fun c hc => plain_of_mem_encode hc⟩
  have hbefore : "file://".toList.all (fun c => decide (0x20 < c.toNat)) = true := by decide
  have hvisible : ∀ c ∈ "file://".toList ++ '/' :: encode cs, 0x20 < c.toNat :=
    List.forall_mem_append.2 ⟨fun c hc => of_decide_eq_true (List.all_eq_true.1 hbefore c hc),
      fun c hc => (plain_visible (hplain c hc)).1⟩
  have hquery : '?' ∉ '/' :: encode cs := fun h => (plain_visible (hplain _ h)).2.1 rfl
  have hfragment : '#' ∉ '/' :: encode cs := fun h => (plain_visible (hplain _ h)).2.2 rfl
  have hscheme : splitScheme ("file://".toList ++ '/' :: encode cs) =
      ("file".toList, '/' :: '/' :: '/' :: encode cs) := rfl
  have hauthority : splitAuthority ('/' :: '/' :: '/' :: encode cs) = ([], '/' :: encode cs) :=
    rfl
  rw [parse, String.toList_ofList, clean_of_visible hvisible, hscheme]
  dsimp only
  rw [hauthority]
  dsimp only
  rw [cut_of_not_mem hfragment, cut_of_not_mem hquery, if_neg (by decide), if_neg (by decide),
    decode_slash, decode_encode]
  rfl

/-- A path that a URI stands for is written as one that stands for it again. -/
theorem Locates.written {uri path : String} (h : Locates uri path) :
    ∃ uri', ofPath path = .ok uri' ∧ Locates uri' path := by
  obtain ⟨cs, hpath, hcs⟩ := h.slash
  have hdrive := hasDrive_toPath h.decoded
  rw [hpath] at hdrive
  refine ⟨_, ofPath_eq hpath hcs hdrive, ?_, ?_, h.slash⟩
  · exact ⟨"//".toList ++ '/' :: encode cs, String.toList_ofList.symm⟩
  · rw [toPath, parse_encoded]
    show Except.ok (fileSystemPath _) = _
    rw [fileSystemPath_of_hasDrive hdrive, ← hpath, String.ofList_toList]

theorem Locates.settingsKey {uri path : String} (h : Locates uri path) :
    World.settingsKey uri = .ok path := by
  have hnonempty : path ≠ "" := by
    rintro rfl
    obtain ⟨cs, hcs, -⟩ := h.slash
    cases hcs
  rw [World.settingsKey, if_pos (List.isPrefixOf_iff_prefix.2 h.file), h.decoded]
  exact congrArg Except.ok (if_neg hnonempty)

end FormatServer.Uri
