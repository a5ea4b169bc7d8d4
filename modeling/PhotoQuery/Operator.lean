/-!
# Operator — comparisons and connectives

The operators that join two operands.  A comparison is a test on the order of its operands; a
connective joins two truth values.
-/

namespace PhotoQuery

/-- The six comparison operators. -/
inductive Comparison where
  | equal
  | notEqual
  | less
  | lessOrEqual
  | greater
  | greaterOrEqual
deriving DecidableEq

namespace Comparison

/-- The operator as it is written. -/
def symbol : Comparison → String
  | .equal => "=="
  | .notEqual => "!="
  | .less => "<"
  | .lessOrEqual => "<="
  | .greater => ">"
  | .greaterOrEqual => ">="

/-- The operator only asks whether its operands are the same. -/
def isEquality : Comparison → Bool
  | .equal | .notEqual => true
  | _ => false

/-- The operator holds of operands in this order. -/
def holds : Comparison → Ordering → Bool
  | .equal, o => o.isEq
  | .notEqual, o => o.isNe
  | .less, o => o.isLT
  | .lessOrEqual, o => o.isLE
  | .greater, o => o.isGT
  | .greaterOrEqual, o => o.isGE

end Comparison

/-- The connectives of two truth values. -/
inductive Connective where
  | and
  | or
deriving DecidableEq

namespace Connective

/-- The connective as it is written. -/
def word : Connective → String
  | .and => "and"
  | .or => "or"

/-- The truth of two joined values. -/
def holds : Connective → Bool → Bool → Bool
  | .and, a, b => a && b
  | .or, a, b => a || b

end Connective

end PhotoQuery
