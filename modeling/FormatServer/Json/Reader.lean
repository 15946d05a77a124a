import FormatServer.Json.Limits
import FormatServer.Text.Hex

/-!
# Reading JSON

`read` reads exactly one value with blanks around it. Besides the standard's values it knows `NaN`,
`Infinity` and `-Infinity`. Comments, trailing commas, raw control characters in a text, a byte
order mark and anything after the value are refused, and so are containers that lie too deep in one
another. The last of several equal keys wins.
-/

set_option autoImplicit false

namespace FormatServer.Json.Reader

/-- Blanks between tokens. -/
def isBlank (c : Char) : Bool := c = ' ' || c = '\t' || c = '\n' || c = '\r'

def skipBlanks (cs : List Char) : List Char := cs.dropWhile isBlank

/-! ## Texts -/

/-- The character of a short escape. -/
def shortEscape? (c : Char) : Option Char :=
  match c with
  | '"' => some '"'
  | '\\' => some '\\'
  | '/' => some '/'
  | 'b' => some '\x08'
  | 'f' => some '\x0C'
  | 'n' => some '\n'
  | 'r' => some '\r'
  | 't' => some '\t'
  | _ => none

def isHighSurrogate (n : Nat) : Bool := 0xD800 ≤ n && n ≤ 0xDBFF

def isLowSurrogate (n : Nat) : Bool := 0xDC00 ≤ n && n ≤ 0xDFFF

/-- The character of a code unit; U+FFFD for a surrogate on its own. -/
def unitChar (n : Nat) : Char :=
  if isHighSurrogate n || isLowSurrogate n then '\uFFFD' else Char.ofNat n

/-- The character of a surrogate pair. -/
def pairChar (high low : Nat) : Char :=
  Char.ofNat (0x10000 + (high - 0xD800) * 0x400 + (low - 0xDC00))

/-- Puts a character in front of a text that has been read. -/
def push (c : Char) (r : Option (List Char × List Char)) : Option (List Char × List Char) :=
  r.map fun t => (c :: t.1, t.2)

/-- The rest of a text after its opening quote, and what follows its closing quote. A high
surrogate read just before waits in `high?` for its low one. -/
def textFrom (high? : Option Nat) : List Char → Option (List Char × List Char)
  | '\\' :: 'u' :: a :: b :: c :: d :: cs =>
    match hexUnit a b c d, high? with
    | none, _ => none
    | some n, some h =>
      if isLowSurrogate n then push (pairChar h n) (textFrom none cs)
      else if isHighSurrogate n then push (unitChar h) (textFrom (some n) cs)
      else push (unitChar h) (push (unitChar n) (textFrom none cs))
    | some n, none =>
      if isHighSurrogate n then textFrom (some n) cs else push (unitChar n) (textFrom none cs)
  | '\\' :: e :: cs =>
    (shortEscape? e).bind fun c => lone high? (push c (textFrom none cs))
  | '"' :: cs => lone high? (some ([], cs))
  | c :: cs => if c.toNat < 0x20 || c = '\\' then none else lone high? (push c (textFrom none cs))
  | [] => none
where
  /-- Four digits of an escape. -/
  hexUnit (a b c d : Char) : Option Nat := Text.hexRead? [a, b, c, d]
  /-- A surrogate that found no partner comes first. -/
  lone (high? : Option Nat) (r : Option (List Char × List Char)) :
      Option (List Char × List Char) :=
    match high? with
    | some h => push (unitChar h) r
    | none => r

/-- A text after its opening quote. -/
def text? (cs : List Char) : Option (String × List Char) :=
  (textFrom none cs).map fun t => (String.ofList t.1, t.2)

/-! ## Numbers -/

/-- ASCII digits at the head of a text, and the rest. -/
def digits (cs : List Char) : List Char × List Char := cs.span Char.isDigit

def digitsValue (ds : List Char) : Nat := ds.foldl (fun n d => n * 10 + (d.toNat - 0x30)) 0

/-- The digits after a point, if a digit follows the point. -/
def fraction (cs : List Char) : List Char × List Char :=
  match cs with
  | '.' :: r => let (ds, rest) := digits r; if ds.isEmpty then ([], cs) else (ds, rest)
  | _ => ([], cs)

/-- The exponent after an `e`, if a digit follows it. -/
def exponent (cs : List Char) : Option Int × List Char :=
  let read (negative : Bool) (r : List Char) : Option Int × List Char :=
    let (ds, rest) := digits r
    if ds.isEmpty then (none, cs)
    else
      let n : Int := digitsValue ds
      (some (if negative then -n else n), rest)
  match cs with
  | e :: r =>
    if e = 'e' || e = 'E' then
      match r with
      | '+' :: r => read false r
      | '-' :: r => read true r
      | r => read false r
    else (none, cs)
  | [] => (none, cs)

/-- Digits before the point: a zero, or digits that do not start with one. -/
def whole (cs : List Char) : List Char × List Char :=
  match cs with
  | '0' :: r => (['0'], r)
  | _ => digits cs

/-- A number after its sign; an integer has no more than `maxDigits` digits. -/
def number? (maxDigits : Nat) (negative : Bool) (cs : List Char) : Option (Json × List Char) :=
  let (ds, r) := whole cs
  if ds.isEmpty then none
  else
    let (fs, r) := fraction r
    let (e?, r) := exponent r
    if fs.isEmpty && e?.isNone then
      if ds.length ≤ maxDigits then
        let n : Int := digitsValue ds
        some (.int (if negative then -n else n), r)
      else none
    else
      let x := Number.Binary64.ofDecimal negative (digitsValue (ds ++ fs))
        (e?.getD 0 - fs.length)
      some (.real x, r)

/-! ## Values -/

/-- What follows a word at the head of a text. -/
def word? (w : String) (cs : List Char) : Option (List Char) :=
  if w.toList.isPrefixOf cs then some (cs.drop w.length) else none

/-- The constants that may stand at the head of a text. -/
def constant? (cs : List Char) : Option (Json × List Char) :=
  [("null", null), ("true", .bool true), ("false", .bool false), ("NaN", .real .nan),
    ("Infinity", .real (.infinite false)), ("-Infinity", .real (.infinite true))].findSome?
    fun (w, v) => (word? w cs).map (v, ·)

/-- Why a text is not read. -/
inductive Refusal where
  | malformed
  /-- A list or an object lies deeper than the reader goes. -/
  | tooDeep (container : Container)
  deriving DecidableEq, Repr

/-- What a reader found at the head of a text; nothing makes the text malformed. -/
def found {α : Type} (r : Option α) : Except Refusal α := r.elim (.error .malformed) .ok

mutual

/-- A value at the head of a text, with `room` for so many containers in one another. Every nested
value consumes a character, so the length of the text is fuel enough. -/
def value (maxDigits room : Nat) : Nat → List Char → Except Refusal (Json × List Char)
  | 0, _ => .error .malformed
  | fuel + 1, cs =>
    match cs, room with
    | '"' :: r, _ => (found (text? r)).map fun (s, rest) => (.str s, rest)
    | '[' :: _, 0 => .error (.tooDeep .array)
    | '[' :: r, room + 1 =>
      match skipBlanks r with
      | ']' :: rest => .ok (.arr [], rest)
      | r => (items maxDigits room fuel r).map fun (vs, rest) => (.arr vs, rest)
    | '\x7b' :: _, 0 => .error (.tooDeep .object)
    | '\x7b' :: r, room + 1 =>
      match skipBlanks r with
      | '\x7d' :: rest => .ok (.obj [], rest)
      | r => (fields maxDigits room fuel r).map fun (fs, rest) => (.obj (Fields.ofPairs fs), rest)
    | '-' :: r, _ => found ((number? maxDigits true r).or (constant? cs))
    | _, _ => found ((number? maxDigits false cs).or (constant? cs))

/-- The items of a list from the first one on, up to the closing bracket. -/
def items (maxDigits room : Nat) : Nat → List Char → Except Refusal (List Json × List Char)
  | 0, _ => .error .malformed
  | fuel + 1, cs => do
    let (v, r) ← value maxDigits room fuel cs
    match skipBlanks r with
    | ']' :: rest => return ([v], rest)
    | ',' :: r => (items maxDigits room fuel (skipBlanks r)).map fun (vs, rest) => (v :: vs, rest)
    | _ => .error .malformed

/-- The fields of an object from the first one on, up to the closing brace. -/
def fields (maxDigits room : Nat) : Nat → List Char → Except Refusal (Fields × List Char)
  | 0, _ => .error .malformed
  | fuel + 1, cs =>
    match cs with
    | '"' :: r => do
      let (k, r) ← found (text? r)
      match skipBlanks r with
      | ':' :: r =>
        let (v, r) ← value maxDigits room fuel (skipBlanks r)
        match skipBlanks r with
        | '\x7d' :: rest => return ([(k, v)], rest)
        | ',' :: r =>
          (fields maxDigits room fuel (skipBlanks r)).map fun (fs, rest) => ((k, v) :: fs, rest)
        | _ => .error .malformed
      | _ => .error .malformed
    | _ => .error .malformed

end

/-- The value that a text consists of, with `room` for so many containers in one another and for
integers of so many digits. -/
def readUpTo (maxDigits room : Nat) (cs : List Char) : Except Refusal Json := do
  let (v, rest) ← value maxDigits room (2 * cs.length + 2) (skipBlanks cs)
  if (skipBlanks rest).isEmpty then return v else .error .malformed

/-- The value that a text consists of, within limits. -/
def read (limits : Limits) (cs : List Char) : Except Refusal Json :=
  readUpTo limits.digits limits.reading cs

end FormatServer.Json.Reader
