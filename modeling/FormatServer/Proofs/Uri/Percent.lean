import FormatServer.Uri.Percent
import FormatServer.Proofs.Text.Utf8

/-!
# Reading back what is percent-encoded

An encoded byte is read as that byte (`unescape_escapeByte`), so that encoding a text and decoding it
gives the text (`decode_encode`). An encoded text has unreserved characters and escapes in it alone
(`plain_of_mem_encode`), nothing that a URI would be split at.
-/

set_option autoImplicit false

namespace FormatServer.Uri

/-- A character that an encoded text may have in it. -/
def isPlain (c : Char) : Bool := c == '%' || c.toNat < 0x80 && isUnreserved (UInt8.ofNat c.toNat)

theorem unescape_cons {c : Char} (h : c ≠ '%') (cs : List Char) :
    unescape (c :: cs) = Text.utf8Bytes c ++ unescape cs := by
  rw [unescape.eq_def]
  split
  · next heq => exact absurd (List.cons_eq_cons.1 heq).1 h
  · next heq =>
    obtain ⟨rfl, rfl⟩ := List.cons_eq_cons.1 heq
    rfl
  · next heq => cases heq

theorem unescape_escape {b : UInt8} {high low : Char}
    (h : Text.hexRead? [high, low] = some b.toNat) (cs : List Char) :
    unescape ('%' :: high :: low :: cs) = b :: unescape cs := by
  rw [unescape, h]
  exact congrArg (· :: unescape cs) UInt8.ofNat_toNat

/-- The two digits of a byte are read as that byte. -/
theorem hexRead?_digits : ∀ n < 256, Text.hexRead?
    [Text.hexDigitUpper (n / 16), Text.hexDigitUpper (n % 16)] = some n := by
  decide +kernel

/-- An unreserved byte is the character that it is shown as. -/
theorem unreserved_byte : ∀ n < 256, isUnreserved (UInt8.ofNat n) = true →
    Char.ofNat n ≠ '%' ∧ Text.utf8Bytes (Char.ofNat n) = [UInt8.ofNat n] ∧
      isPlain (Char.ofNat n) = true := by
  decide +kernel

theorem plain_digit : ∀ n < 16, isPlain (Text.hexDigitUpper n) = true := by
  decide +kernel

theorem unescape_escapeByte (b : UInt8) (cs : List Char) :
    unescape (escapeByte b ++ cs) = b :: unescape cs := by
  unfold escapeByte
  split
  · next h =>
    rw [← UInt8.ofNat_toNat (x := b)] at h
    obtain ⟨hpercent, hbyte, -⟩ := unreserved_byte b.toNat b.toNat_lt h
    rw [List.singleton_append, unescape_cons hpercent, hbyte, UInt8.ofNat_toNat]
    rfl
  · exact unescape_escape (hexRead?_digits b.toNat b.toNat_lt) cs

theorem unescape_encode (cs : List Char) : unescape (encode cs) = Text.encode cs := by
  unfold encode
  induction Text.encode cs with
  | nil => rfl
  | cons b bytes ih => rw [List.flatMap_cons, unescape_escapeByte, ih]

/-- An encoded text is decoded to that text. -/
theorem decode_encode (cs : List Char) : decode (encode cs) = cs := by
  rw [decode, unescape_encode, Text.decodeLossy_encode]

theorem plain_of_mem_escapeByte {b : UInt8} {c : Char} (h : c ∈ escapeByte b) : isPlain c = true := by
  have hb : b.toNat < 256 := b.toNat_lt
  unfold escapeByte at h
  split at h
  · next hunreserved =>
    rw [← UInt8.ofNat_toNat (x := b)] at hunreserved
    rw [List.mem_singleton.1 h]
    exact (unreserved_byte b.toNat hb hunreserved).2.2
  · obtain rfl | rfl | rfl := by simpa using h
    · rfl
    · exact plain_digit _ (by omega)
    · exact plain_digit _ (by omega)

theorem plain_of_mem_encode {cs : List Char} {c : Char} (h : c ∈ encode cs) : isPlain c = true := by
  obtain ⟨b, -, hc⟩ := List.mem_flatMap.1 h
  exact plain_of_mem_escapeByte hc

end FormatServer.Uri
