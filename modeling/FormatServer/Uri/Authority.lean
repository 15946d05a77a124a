import FormatServer.Text.Digit
import FormatServer.Text.Hex
import FormatServer.Text.Split

/-!
# The authority of a URI

An authority with square brackets is well formed if it has both, and if the host after the user is
an IPv6 address or a future address format, in brackets or not. No character of an authority may be
a compatibility form of a delimiter.
-/

set_option autoImplicit false

namespace FormatServer.Uri

/-- Characters that turn into one of `/?#@:` under compatibility normalisation. -/
def disguisedDelimiters : List Nat :=
  [0x2047, 0x2048, 0x2049, 0x2100, 0x2101, 0x2105, 0x2106, 0x2A74, 0xFE13, 0xFE16,
   0xFE55, 0xFE56, 0xFE5F, 0xFE6B, 0xFF03, 0xFF0F, 0xFF1A, 0xFF1F, 0xFF20]

/-! ## Addresses in brackets -/

/-- A group of an IPv6 address: one to four hexadecimal digits. -/
def isGroup (cs : List Char) : Bool :=
  !cs.isEmpty && cs.length ≤ 4 && cs.all fun c => (Text.hexValue? c).isSome

/-- A number of an IPv4 address: up to three ASCII digits, at most 255, without a leading zero. -/
def isOctet (cs : List Char) : Bool :=
  !cs.isEmpty && cs.length ≤ 3 && cs.all Char.isDigit &&
    (cs.length == 1 || cs.head? != some '0') &&
    cs.foldl (fun n c => n * 10 + (c.toNat - 0x30)) 0 ≤ 255

/-- Four numbers with dots between them. -/
def isIpv4 (cs : List Char) : Bool :=
  let parts := Text.splitAtEach '.' cs
  parts.length == 4 && parts.all isOctet

/-- The groups of an address, a trailing IPv4 address counted as two. -/
def groups? (cs : List Char) : Option (List (List Char)) :=
  let parts := Text.splitAtEach ':' cs
  match parts.getLast? with
  | some last =>
    if last.contains '.' then
      if isIpv4 last then some (parts.dropLast ++ [['0'], ['0']]) else none
    else some parts
  | none => none

/-- Eight groups, or fewer where one gap `::` stands for at least one group. -/
def isGrouped (parts : List (List Char)) : Bool :=
  let inner := (parts.drop 1).dropLast
  let gaps := (inner.filter List.isEmpty).length
  let first := parts.head?.getD []
  let last := parts.getLast?.getD []
  if gaps = 0 then parts.length == 8 && parts.all isGroup
  else if gaps = 1 then
    let before := inner.takeWhile (!·.isEmpty)
    let after := (inner.dropWhile (!·.isEmpty)).drop 1
    (if first.isEmpty then before.isEmpty else isGroup first) &&
    (if last.isEmpty then after.isEmpty else isGroup last) &&
    before.all isGroup && after.all isGroup &&
    (if first.isEmpty then 0 else before.length + 1) +
      (if last.isEmpty then 0 else after.length + 1) ≤ 7
  else false

/-- An IPv6 address, with a scope after `%` or without. -/
def isIpv6 (cs : List Char) : Bool :=
  let (address, scope?) := match Text.cut? '%' cs with
    | some (a, s) => (a, some s)
    | none => (cs, none)
  let scopeFits := match scope? with
    | some s => !s.isEmpty && !s.contains '%'
    | none => true
  let parts := Text.splitAtEach ':' address
  scopeFits && 3 ≤ parts.length && !address.contains '/' &&
    match groups? address with
    | some gs => gs.length ≤ 9 && isGrouped gs
    | none => false

/-- A future address format: `v`, a hexadecimal version, a dot and something on one line. -/
def isFuture (cs : List Char) : Bool :=
  match cs with
  | 'v' :: r =>
    match Text.cut? '.' r with
    | some (version, rest) =>
      !version.isEmpty && version.all (fun c => (Text.hexValue? c).isSome) && !rest.isEmpty &&
        !rest.contains '\n'
    | none => false
  | _ => false

/-- A host that is an address. -/
def isAddress (cs : List Char) : Bool :=
  if cs.head? = some 'v' then isFuture cs else isIpv6 cs

/-- What follows the user, who ends at the last at sign. -/
def withoutUser (cs : List Char) : List Char := (cs.reverse.takeWhile (· ≠ '@')).reverse

/-- The host of an authority, without its brackets. Brackets stand around a whole host, so that
nothing may follow them but what a colon begins. -/
def host? (cs : List Char) : Option (List Char) :=
  match Text.cut? '[' (withoutUser cs) with
  | some ([], bracketed) =>
    let (host, rest) := Text.cut ']' bracketed
    if rest.isEmpty || rest.head? = some ':' then some host else none
  | some _ => none
  | none => some (Text.cut ':' (withoutUser cs)).1

/-! ## The rule -/

/-- An authority that a URI may have. -/
def isAuthority (cs : List Char) : Bool :=
  (if cs.contains '[' then cs.contains ']' && ((host? cs).map isAddress).getD false
  else !cs.contains ']') &&
  !cs.any fun c => disguisedDelimiters.contains c.toNat

end FormatServer.Uri
