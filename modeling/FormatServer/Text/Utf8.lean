/-!
# UTF-8

`scan` reads bytes into characters, with a mark for each maximal ill-formed part: the longest
run of bytes that begins a character and cannot be continued, or a byte that begins none.
`decode?` accepts well-formed bytes alone; `decodeLossy` writes U+FFFD for each mark.
-/

set_option autoImplicit false

namespace FormatServer.Text

/-- How a first byte goes on: its own bits, how many bytes follow, and the bounds of the next. -/
structure Lead where
  bits : Nat
  more : Nat
  low : Nat
  high : Nat

/-- The lead that a byte stands for, `none` for a byte that begins no character. -/
def Lead.of? (b : Nat) : Option Lead :=
  if b < 0x80 then some ⟨b, 0, 0x80, 0xBF⟩
  else if b < 0xC2 then none
  else if b < 0xE0 then some ⟨b - 0xC0, 1, 0x80, 0xBF⟩
  else if b = 0xE0 then some ⟨0, 2, 0xA0, 0xBF⟩
  else if b = 0xED then some ⟨0xD, 2, 0x80, 0x9F⟩
  else if b < 0xF0 then some ⟨b - 0xE0, 2, 0x80, 0xBF⟩
  else if b = 0xF0 then some ⟨0, 3, 0x90, 0xBF⟩
  else if b < 0xF4 then some ⟨b - 0xF0, 3, 0x80, 0xBF⟩
  else if b = 0xF4 then some ⟨4, 3, 0x80, 0x8F⟩
  else none

/-- Characters read from bytes, with the character under way: its bits so far, how many bytes it
still needs, and the bounds of the next one. -/
def scanFrom (open? : Option Lead) : List UInt8 → List (Option Char)
  | [] => if open?.isSome then [none] else []
  | byte :: bytes =>
    let b := byte.toNat
    let fresh (_ : Unit) : List (Option Char) :=
      match Lead.of? b with
      | none => none :: scanFrom none bytes
      | some l =>
        if l.more = 0 then some (Char.ofNat l.bits) :: scanFrom none bytes
        else scanFrom (some l) bytes
    match open? with
    | none => fresh ()
    | some l =>
      if l.low ≤ b ∧ b ≤ l.high then
        let bits := l.bits * 64 + (b - 0x80)
        if l.more = 1 then some (Char.ofNat bits) :: scanFrom none bytes
        else scanFrom (some ⟨bits, l.more - 1, 0x80, 0xBF⟩) bytes
      else none :: fresh ()

/-- Characters of a byte sequence, `none` for each maximal ill-formed part. -/
def scan (bytes : List UInt8) : List (Option Char) := scanFrom none bytes

/-- Characters of well-formed bytes. -/
def decode? (bytes : List UInt8) : Option (List Char) := (scan bytes).mapM id

/-- Characters of any bytes, U+FFFD for each maximal ill-formed part. -/
def decodeLossy (bytes : List UInt8) : List Char := (scan bytes).map (·.getD '\uFFFD')

/-- The bytes of one character. -/
def utf8Bytes (c : Char) : List UInt8 :=
  let n := c.toNat
  if n < 0x80 then [UInt8.ofNat n]
  else if n < 0x800 then [UInt8.ofNat (0xC0 + n / 64), UInt8.ofNat (0x80 + n % 64)]
  else if n < 0x10000 then
    [UInt8.ofNat (0xE0 + n / 4096), UInt8.ofNat (0x80 + n / 64 % 64), UInt8.ofNat (0x80 + n % 64)]
  else
    [UInt8.ofNat (0xF0 + n / 262144), UInt8.ofNat (0x80 + n / 4096 % 64),
      UInt8.ofNat (0x80 + n / 64 % 64), UInt8.ofNat (0x80 + n % 64)]

/-- A text encoded in UTF-8. -/
def encode (cs : List Char) : List UInt8 := cs.flatMap utf8Bytes

end FormatServer.Text
