/-!
# Positions and ranges

Lines are counted from zero and columns in UTF-16 code units. What the client sends may be any
integer.
-/

set_option autoImplicit false

namespace FormatServer

/-- A place in a document. -/
structure Position where
  line : Int
  character : Int
  deriving DecidableEq, Repr, Inhabited

/-- Two places in a document. -/
structure Range where
  start : Position
  stop : Position
  deriving DecidableEq, Repr, Inhabited

end FormatServer
