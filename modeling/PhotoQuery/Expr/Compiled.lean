import PhotoQuery.Reading

/-!
# Expr — compiled expressions

An expression that has been checked is a reading.  Beside it stand what the checks know of it:
whether some photo has no value under it, and where errors about it are reported.
-/

namespace PhotoQuery

/-- A checked expression.  Unless it is optional, every photo has a value under it. -/
structure Compiled where
  reading : Reading
  optional : Bool
  position : Nat

namespace Compiled

/-- The kind of the expression. -/
def kind (c : Compiled) : Kind := c.reading.kind

/-- The value that a photo has under the expression, unless it is absent. -/
def value (c : Compiled) (photo : Image) : Option Value := c.reading.value photo

end Compiled

end PhotoQuery
