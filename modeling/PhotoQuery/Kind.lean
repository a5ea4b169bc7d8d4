import PhotoQuery.Text.Basic
import PhotoQuery.Timestamp

/-!
# Kind — the kinds of values

Every expression of a query has a kind, and the kind says what its values are.  Integers and
decimals are both numbers; they are two kinds because a literal and a field each say which of the
two they mean.  The kind of the literal `null` has no value at all: such an expression is always
absent.

A `Value` is a value together with what it is.  Sort keys are values: photos may be ordered by keys
of different kinds.
-/

namespace PhotoQuery

/-- The kinds of expressions. -/
inductive Kind where
  | string
  | integer
  | decimal
  | boolean
  | date
  | null
deriving DecidableEq

/-- The kind as messages name it. -/
def Kind.name : Kind → String
  | .string => "string"
  | .integer => "integer"
  | .decimal => "decimal"
  | .boolean => "boolean"
  | .date => "date"
  | .null => "null"

/-- A value that a photo may have under a property or an expression. -/
inductive Value where
  | string (text : Text)
  | number (number : Number)
  | boolean (truth : Bool)
  | date (date : Timestamp)
deriving DecidableEq

end PhotoQuery
