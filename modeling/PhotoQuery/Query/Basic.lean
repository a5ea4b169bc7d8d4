import PhotoQuery.Expr.Basic

/-!
# Query — predicates with a sort and a limit

A query selects the photos that its predicate holds of, or all of them; a sort clause then orders
the selection by a property, and a limit keeps the first few of it.
-/

namespace PhotoQuery

/-- The directions of an order. -/
inductive Direction where
  | ascending
  | descending
deriving DecidableEq

/-- The direction as it is written. -/
def Direction.word : Direction → String
  | .ascending => "asc"
  | .descending => "desc"

/-- The property to sort by, and which way.  Errors about the path are reported at the position. -/
structure SortClause where
  path : List Text
  direction : Direction
  position : Nat
deriving DecidableEq

/-- A query.  Without a predicate it selects all photos. -/
structure Query where
  predicate : Option Expr
  sort : Option SortClause
  limit : Option Nat

end PhotoQuery
