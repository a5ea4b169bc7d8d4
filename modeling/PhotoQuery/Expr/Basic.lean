import PhotoQuery.Number.Basic
import PhotoQuery.Operator
import PhotoQuery.Text.Basic

/-!
# Expr — the trees of predicates

A predicate is a tree of comparisons, connectives, negations and calls over properties and
constants.  Every node knows the position in the source that its errors are reported at: that of
its operator, its name, its first segment or its literal.  Parentheses leave no node.

A tree need not come from a source.  `Expr.foreign` stands for a node that is none of the
language's; the grammar never builds one, and no predicate is made of one.
-/

namespace PhotoQuery

/-- The literals of a query. -/
inductive Constant where
  | string (text : Text)
  | integer (number : Number)
  | decimal (number : Number)
  | boolean (truth : Bool)
  | null
deriving DecidableEq

/-- A predicate, or a part of one. -/
inductive Expr where
  | logical (connective : Connective) (position : Nat) (left right : Expr)
  | comparison (operator : Comparison) (position : Nat) (left right : Expr)
  | negation (position : Nat) (operand : Expr)
  | call (name : Text) (position : Nat) (args : List Expr)
  | property (path : List Text) (position : Nat)
  | constant (value : Constant) (position : Nat)
  | foreign (tag : Text)

/-- Where errors about the node are reported. -/
def Expr.position : Expr → Nat
  | .logical _ position _ _ => position
  | .comparison _ position _ _ => position
  | .negation position _ => position
  | .call _ position _ => position
  | .property _ position => position
  | .constant _ position => position
  | .foreign _ => 0

end PhotoQuery
