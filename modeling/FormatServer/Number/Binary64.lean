/-!
# Binary floating point numbers of 64 bits

A finite number is `± mantissa * 2 ^ exponent` with a mantissa below `2 ^ 53` and an exponent of at
least -1074. `ofDecimal` rounds a decimal to the nearest one, ties to the even mantissa. `text`
writes the shortest decimal that reads back as the same number.
-/

set_option autoImplicit false

namespace FormatServer.Number

inductive Binary64 where
  | finite (negative : Bool) (mantissa : Nat) (exponent : Int)
  | infinite (negative : Bool)
  | nan
  deriving DecidableEq, Repr, Inhabited

namespace Binary64

/-- Neither zero nor minus zero. -/
def isNonzero : Binary64 → Bool
  | finite _ m _ => m != 0
  | _ => true

/-! ## Reading -/

/-- The quotient rounded to the nearest integer, ties to the even one. -/
def divideToEven (n d : Nat) : Nat :=
  let q := n / d
  let r := n % d
  if 2 * r < d then q
  else if d < 2 * r then q + 1
  else if q % 2 = 0 then q else q + 1

/-- Numerator and denominator of `m * base ^ e`. -/
def ratio (m base : Nat) (e : Int) : Nat × Nat :=
  if 0 ≤ e then (m * Nat.pow base e.toNat, 1) else (m, Nat.pow base (-e).toNat)

/-- The exponent of the leading bit of a positive fraction `n / d`. -/
def leadingBit (n d : Nat) : Int :=
  let a : Int := (n.log2 : Int) - d.log2
  let (p, q) := ratio d 2 a
  if p ≤ n * q then a else a - 1

/-- `2 ^ 52`, the smallest mantissa of a normal number. -/
def leastNormal : Nat := 0x10000000000000

/-- The number nearest to the positive fraction `n / d`. -/
def round (negative : Bool) (n d : Nat) : Binary64 :=
  let e := max (leadingBit n d - 52) (-1074)
  let (p, q) := ratio d 2 e
  let m := divideToEven (n * q) p
  let (m, e) := if m = 2 * leastNormal then (leastNormal, e + 1) else (m, e)
  if 971 < e then infinite negative else finite negative m e

/-- The number nearest to `digits * 10 ^ exponent`. -/
def ofDecimal (negative : Bool) (digits : Nat) (exponent : Int) : Binary64 :=
  if digits = 0 then finite negative 0 (-1074)
  else
    let size : Int := (digits.log2 : Int) / 3 + 1
    if 400 < exponent then infinite negative
    else if exponent + size < -400 then finite negative 0 (-1074)
    else
      let (n, d) := ratio digits 10 exponent
      round negative n d

/-! ## Writing -/

/-- A fraction with the distances at which its neighbours' halves begin, all over one denominator;
`closed` says that the ends still round to it. -/
structure Interval where
  value : Nat
  below : Nat
  above : Nat
  denominator : Nat
  closed : Bool

/-- The decimals that read as the positive number `m * 2 ^ e`. -/
def interval (m : Nat) (e : Int) : Interval :=
  let unit := Nat.pow 2 e.toNat
  let den := 4 * Nat.pow 2 (-e).toNat
  let below := if m = leastNormal ∧ -1074 < e then unit else 2 * unit
  ⟨4 * m * unit, below, 2 * unit, den, m % 2 = 0⟩

/-- `c * 10 ^ p` lies in the interval; if so, its distance from the value, scaled. -/
def Interval.distance? (i : Interval) (c : Nat) (p : Int) : Option Nat :=
  let (a, b) := ratio (c * i.denominator) 10 p
  let v := i.value * b
  if a ≤ v then
    let far := v - a
    if far < i.below * b || (i.closed && far == i.below * b) then some far else none
  else
    let far := a - v
    if far < i.above * b || (i.closed && far == i.above * b) then some far else none

/-- The point of the grid `10 ^ p` nearest to the value, if it lies in the interval. -/
def Interval.nearest? (i : Interval) (p : Int) : Option Nat :=
  let (a, b) := ratio i.denominator 10 p
  let c := i.value * b / a
  match i.distance? c p, i.distance? (c + 1) p with
  | some x, some y => some (if x < y || (x == y && c % 2 == 0) then c else c + 1)
  | some _, none => some c
  | none, some _ => some (c + 1)
  | none, none => none

/-- Digits before the point: `10 ^ (magnitude - 1) ≤ value < 10 ^ magnitude`. -/
def Interval.magnitude (i : Interval) : Int :=
  let reaches (k : Nat) : Bool :=
    let (a, b) := ratio i.denominator 10 ((k : Int) - 330)
    a ≤ i.value * b
  (((List.range 660).takeWhile reaches).length : Int) - 330

/-- The shortest decimal in the interval, as digits and the place of the point before them. -/
def Interval.shortest (i : Interval) : Nat × Int :=
  let top := i.magnitude
  let grids := (List.range 17).map fun (k : Nat) => top - 1 - (k : Int)
  match grids.findSome? fun p => (i.nearest? p).map (·, p) with
  | some found => found
  | none => (0, 0)

/-- Decimal digits of a natural number, without trailing zeros. -/
def digitsOf (n : Nat) : List Char :=
  ((Nat.toDigits 10 n).reverse.dropWhile (· = '0')).reverse

/-- Digits with the point `point` places after their first, written in full from `1e-4` up to
`1e16` and with an exponent of at least two digits outside. -/
def write (digits : List Char) (point : Int) : List Char :=
  if -4 < point ∧ point ≤ 16 then
    if point ≤ 0 then '0' :: '.' :: List.replicate (-point).toNat '0' ++ digits
    else if (digits.length : Int) ≤ point then
      digits ++ List.replicate (point.toNat - digits.length) '0' ++ ['.', '0']
    else digits.take point.toNat ++ '.' :: digits.drop point.toNat
  else
    let exponent := point - 1
    let places := Nat.toDigits 10 exponent.natAbs
    let places := if places.length < 2 then '0' :: places else places
    let fraction := match digits.drop 1 with
      | [] => []
      | ds => '.' :: ds
    digits.take 1 ++ fraction ++ 'e' :: (if exponent < 0 then '-' else '+') :: places

/-- The text of a positive number. -/
def positiveText (m : Nat) (e : Int) : List Char :=
  let (c, p) := (interval m e).shortest
  write (digitsOf c) (p + (Nat.toDigits 10 c).length)

/-- The text of a finite number, by its parts. -/
def finiteText (negative : Bool) (m : Nat) (e : Int) : List Char :=
  let body := if m = 0 then ['0', '.', '0'] else positiveText m e
  if negative then '-' :: body else body

end Binary64

end FormatServer.Number
