/-!
# Paths as they are written

Operations on the text of a path that leave its spelling alone: nothing is normalised.
-/

set_option autoImplicit false

namespace FormatServer.Spelling

/-- The path starts with a slash. -/
def isAbsolute (s : String) : Bool := s.toList.head? = some '/'

/-- `b` below `a`; an absolute `b` replaces it. -/
def join (a b : String) : String :=
  if isAbsolute b then b
  else if a = "" ∨ a.toList.getLast? = some '/' then a ++ b
  else a ++ "/" ++ b

/-- Everything up to the last slash, which is kept only in a head made of slashes alone. -/
def directory (s : String) : String :=
  let head := (s.toList.reverse.dropWhile (· ≠ '/')).reverse
  if head.all (· = '/') then String.ofList head
  else String.ofList (head.reverse.dropWhile (· = '/')).reverse

/-- The last component. -/
def base (s : String) : String :=
  String.ofList (s.toList.reverse.takeWhile (· ≠ '/')).reverse

/-- The last dot of the last component and what follows it; leading dots begin no extension. -/
def extension (s : String) : String :=
  let stem := (base s).toList.dropWhile (· = '.')
  if stem.contains '.' then
    String.ofList ('.' :: (stem.reverse.takeWhile (· ≠ '.')).reverse)
  else ""

end FormatServer.Spelling
