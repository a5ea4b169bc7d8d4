import PhotoQuery.Property.Path
import PhotoQuery.Query.Basic

/-!
# Sort — keys and their order

A sort key is the value that a photo has under a property, or absent.  Dates order before numbers,
numbers before truth values, and those before strings; within a kind the order is the natural one,
where strings compare unit by unit.

Not every two keys have an order: the order of two numbers is the sign of their difference, and
values that are not numbers, invalid dates and pairs of equal infinities have none.  An absent key
comes last in both directions.
-/

namespace PhotoQuery

namespace Value

/-- The place of a value's kind in the order of kinds. -/
def rank : Value → Nat
  | .date _ => 0
  | .number _ => 1
  | .boolean _ => 2
  | .string _ => 3

/-- The order of two values, if they have one. -/
def order? : Value → Value → Option Ordering
  | .date a, .date b => Timestamp.compare? a b
  | .number a, .number b => Number.differenceSign? a b
  | .boolean a, .boolean b => some (compare a b)
  | .string a, .string b => some (compare a b)
  | a, b => some (compare a.rank b.rank)

end Value

/-- The order in the direction. -/
def Direction.apply : Direction → Ordering → Ordering
  | .ascending, o => o
  | .descending, o => o.swap

/-- The order of two keys in the direction, if they have one. -/
def orderKeys? (direction : Direction) : Option Value → Option Value → Option Ordering
  | none, none => some .eq
  | none, some _ => some .gt
  | some _, none => some .lt
  | some a, some b => (a.order? b).map direction.apply

/-- The keys under the property that a path names. -/
def keyReader (path : List Text) : Except SemanticError (Image → Option Value) :=
  (Property.ofPath path).map fun property => property.reading.value

/-- How a query ranks photos: by which key, and which way. -/
structure Ranking where
  direction : Direction
  key : Image → Option Value

namespace Ranking

/-- The ranking that a sort clause asks for. -/
def ofClause (clause : SortClause) : Except SemanticError Ranking :=
  (keyReader clause.path).map fun key => ⟨clause.direction, key⟩

/-- The order of two photos, if their keys have one. -/
def order? (ranking : Ranking) (a b : Image) : Option Ordering :=
  orderKeys? ranking.direction (ranking.key a) (ranking.key b)

end Ranking

end PhotoQuery
