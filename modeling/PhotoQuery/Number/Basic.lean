/-!
# Number — double-precision values

The numbers of a query and of a photo's metadata are the double-precision values of IEEE 754.  A
value that is a number is held as a sign and a `Rank`, its place in the ascending list of the
magnitudes from zero to infinity.  Comparing magnitudes is comparing ranks, and the rank is also
the bit pattern of the magnitude.  Zero has both signs; the two compare as equal.

* `Number.compare?` orders two numbers, and nothing against `Number.nan`.
* `Number.differenceSign?` is the sign of a difference; it differs from `compare?` on two equal
  infinities, whose difference is not a number.
* `Number.safeInteger?` reads a number as an integer that is told apart from its neighbours.
-/

namespace PhotoQuery

/-- The place of a magnitude among those of double precision; the last place is infinity.  The place
is the magnitude's bit pattern. -/
abbrev Rank := Fin 0x7FF0000000000001

namespace Rank

/-- The place of infinity. -/
def infinite : Rank := ⟨0x7FF0000000000000, by omega⟩

/-- The number of places from a power of two to the next, `2 ^ 52`. -/
def binade : Nat := 0x10000000000000

/-- A finite magnitude as a multiple of the smallest one, `2 ^ (-1074)`. -/
def steps (r : Rank) : Nat :=
  if r.val < binade then r.val else (r.val % binade + binade) <<< (r.val / binade - 1)

end Rank

/-- A double-precision number, or the value that is none. -/
inductive Number where
  | nan
  | signed (negative : Bool) (rank : Rank)
deriving DecidableEq

namespace Number

/-- The zero without a minus sign. -/
def zero : Number := .signed false 0

/-- The infinity of the given sign. -/
def infinity (negative : Bool) : Number := .signed negative .infinite

/-- The rank of a magnitude under its sign; both zeros have height 0. -/
def height (negative : Bool) (rank : Rank) : Int := if negative then -(rank.val : Int) else rank.val

/-- The order of two numbers; nothing compares with a value that is not a number. -/
def compare? : Number → Number → Option Ordering
  | .signed s r, .signed t q => some (compare (height s r) (height t q))
  | _, _ => none

/-- One of the two infinities. -/
def isInfinite : Number → Bool
  | .nan => false
  | .signed _ r => r == .infinite

/-- The sign of the first number less the second.  Two equal infinities have no difference. -/
def differenceSign? (a b : Number) : Option Ordering :=
  if a = b && a.isInfinite then none else compare? a b

/-- The number is at most zero. -/
def isNonPositive (a : Number) : Bool := (compare? a zero).any Ordering.isLE

/-- The number as an integer, if it is one of magnitude below `2 ^ 53`. -/
def safeInteger? : Number → Option Int
  | .nan => none
  | .signed negative r =>
    let whole : Nat := r.steps >>> 1074
    if whole <<< 1074 = r.steps ∧ whole < 0x20000000000000 then
      some (if negative then -(whole : Int) else whole)
    else none

/-- The bit pattern of a number: its rank, below a sign bit. -/
def bits? : Number → Option Nat
  | .nan => none
  | .signed negative r => some (r.val + if negative then 0x8000000000000000 else 0)

end Number

end PhotoQuery
