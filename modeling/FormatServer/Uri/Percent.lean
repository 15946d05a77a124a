import FormatServer.Text.Hex
import FormatServer.Text.Utf8

/-!
# Percent encoding

Escapes stand for bytes and bytes for UTF-8 text. Decoding leaves a malformed escape as it is and
writes U+FFFD for ill-formed bytes; encoding keeps letters, digits and `_.-~/`.
-/

set_option autoImplicit false

namespace FormatServer.Uri

/-- The bytes of a text, each escape replaced by the byte it stands for. -/
def unescape : List Char → List UInt8
  | '%' :: a :: b :: cs =>
    match Text.hexRead? [a, b] with
    | some n => UInt8.ofNat n :: unescape cs
    | none => Text.utf8Bytes '%' ++ unescape (a :: b :: cs)
  | c :: cs => Text.utf8Bytes c ++ unescape cs
  | [] => []

/-- A text with its escapes decoded. -/
def decode (cs : List Char) : List Char := Text.decodeLossy (unescape cs)

/-- A byte that a path shows as a character. -/
def isUnreserved (b : UInt8) : Bool :=
  let n := b.toNat
  (0x30 ≤ n && n ≤ 0x39) || (0x41 ≤ n && n ≤ 0x5A) || (0x61 ≤ n && n ≤ 0x7A) ||
    n == 0x5F || n == 0x2E || n == 0x2D || n == 0x7E || n == 0x2F

/-- One byte of an encoded path. -/
def escapeByte (b : UInt8) : List Char :=
  if isUnreserved b then [Char.ofNat b.toNat]
  else ['%', Text.hexDigitUpper (b.toNat / 16), Text.hexDigitUpper (b.toNat % 16)]

/-- A text with everything but unreserved characters escaped. -/
def encode (cs : List Char) : List Char := (Text.encode cs).flatMap escapeByte

end FormatServer.Uri
