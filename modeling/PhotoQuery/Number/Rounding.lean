import PhotoQuery.Number.Basic

/-!
# Number — rounding to the nearest

Every fraction has a nearest double-precision number; of two equally near it is the one whose last
bit is zero.  `Rank.nearest` counts the fraction in steps of `2 ^ (-1074)`, keeps its 53 leading
bits and rounds off the others; a fraction beyond the largest finite number goes to infinity.

The rank of a magnitude of `m` units, each `2 ^ shift` steps, is `shift * binade + m`: when
rounding carries `m` to `2 ^ 53`, this is the first place of the next binade, as it should be.
-/

namespace PhotoQuery

/-- The integer nearest to a fraction; of two, the even one. -/
def nearestEven (num den : Nat) : Nat :=
  let low := num / den
  let twice := 2 * (num % den)
  if twice > den ∨ (twice = den ∧ low % 2 = 1) then low + 1 else low

/-- The place of the magnitude nearest to a fraction. -/
def Rank.nearest (num den : Nat) : Rank :=
  let steps := num <<< 1074
  let shift := (steps / den).log2 - 52
  ⟨min 0x7FF0000000000000 (shift * binade + nearestEven steps (den <<< shift)), by omega⟩

namespace Number

/-- The number nearest to an integer. -/
def ofInt (i : Int) : Number := .signed (i < 0) (.nearest i.natAbs 1)

/-- The number nearest to a natural number. -/
def ofNat (n : Nat) : Number := .signed false (.nearest n 1)

/-- The number nearest to `digits * 10 ^ exponent`, where the digits are at most `count` many.
Above `10 ^ 400` and below `10 ^ (-400)` every magnitude has the same nearest number. -/
def ofDecimal (negative : Bool) (digits count : Nat) (exponent : Int) : Number :=
  .signed negative <|
    if 0 ≤ exponent then .nearest (digits * Nat.pow 10 (min exponent.toNat 400)) 1
    else .nearest digits (Nat.pow 10 (min (-exponent).toNat (count + 400)))

end Number

end PhotoQuery
