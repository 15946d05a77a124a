/-!
# Span edits

A span edit replaces one span of a text. `between` finds the smallest one that turns a text into
another: what both begin with stays, and of the rest what both end with.
-/

set_option autoImplicit false

namespace FormatServer

/-- Replace the characters from `start` to before `stop` by `text`. -/
structure Span where
  start : Nat
  stop : Nat
  text : List Char
  deriving DecidableEq, Repr

namespace Span

/-- An edit that changes nothing. -/
def isEmpty (e : Span) : Bool := e.start = e.stop && e.text.isEmpty

/-- The text after the edit. -/
def apply (e : Span) (source : List Char) : List Char :=
  source.take e.start ++ e.text ++ source.drop e.stop

/-- Length of the longest common beginning. -/
def common : List Char → List Char → Nat
  | a :: as, b :: bs => if a = b then common as bs + 1 else 0
  | _, _ => 0

/-- The smallest edit that turns `source` into `candidate`. -/
def between (source candidate : List Char) : Span :=
  let start := common source candidate
  let rest := source.drop start
  let new := candidate.drop start
  let kept := common rest.reverse new.reverse
  ⟨start, source.length - kept, new.take (new.length - kept)⟩

end Span

end FormatServer
