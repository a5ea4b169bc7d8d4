import PhotoQuery.Number.Rounding
import PhotoQuery.Text.Blank

/-!
# Number — numeric text

`Number.ofText` reads a text as a number.  Blanks around it do not count, and the empty text is
zero.  A number is written in decimal, with an optional sign, fraction and exponent; as the word
`Infinity`, with an optional sign; or, without a sign, in base sixteen, eight or two after `0x`,
`0o` or `0b`.  Every other text is not a number.

The lexemes of a query are plain digits, with or without a fraction.  The other forms are here
because a token list can also come from elsewhere.
-/

namespace PhotoQuery

namespace Text

/-- A decimal digit. -/
def isDigit (u : CodeUnit) : Bool := unit '0' ≤ u && u ≤ unit '9'

/-- The value of a digit or a letter as a digit. -/
def digitValue? (u : CodeUnit) : Option Nat :=
  let n := u.toNat
  if isDigit u then some (n - 0x30)
  else if 0x41 ≤ n && n ≤ 0x46 then some (n - 0x41 + 10)
  else if 0x61 ≤ n && n ≤ 0x66 then some (n - 0x61 + 10)
  else none

/-- The number that follows `acc` when the digits are read in the base, most significant first. -/
def natFrom? (base acc : Nat) : Text → Option Nat
  | [] => some acc
  | u :: rest => do
    let d ← digitValue? u
    if d < base then natFrom? base (acc * base + d) rest else none

/-- A non-empty run of digits of the base, as a number. -/
def toNat? (base : Nat) (text : Text) : Option Nat :=
  if text.isEmpty then none else natFrom? base 0 text

/-- A text without its sign, and whether that is a minus. -/
def splitSign : Text → Bool × Text
  | [] => (false, [])
  | u :: rest =>
    if u = unit '-' then (true, rest)
    else if u = unit '+' then (false, rest)
    else (false, u :: rest)

end Text

namespace Number

open Text

/-- The exponent that a decimal number ends in; nothing at all stands for zero. -/
def exponent? : Text → Option Int
  | [] => some 0
  | u :: rest =>
    if u = unit 'e' || u = unit 'E' then
      let (negative, digits) := splitSign rest
      (toNat? 10 digits).map fun n => if negative then -(n : Int) else n
    else none

/-- A decimal number without a sign. -/
def decimal? (negative : Bool) (text : Text) : Option Number :=
  let whole := text.takeWhile isDigit
  let (fraction, rest) := match text.drop whole.length with
    | [] => ([], [])
    | u :: rest =>
      if u = unit '.' then (rest.takeWhile isDigit, rest.dropWhile isDigit) else ([], u :: rest)
  do
    let digits ← toNat? 10 (whole ++ fraction)
    let exponent ← exponent? rest
    some (ofDecimal negative digits (whole ++ fraction).length (exponent - fraction.length))

/-- A number after a base mark such as `0x`. -/
def based? : Text → Option Number
  | u :: mark :: digits =>
    if u ≠ unit '0' then none
    else if mark = unit 'x' || mark = unit 'X' then (toNat? 16 digits).map ofNat
    else if mark = unit 'o' || mark = unit 'O' then (toNat? 8 digits).map ofNat
    else if mark = unit 'b' || mark = unit 'B' then (toNat? 2 digits).map ofNat
    else none
  | _ => none

/-- The number that a text is written for. -/
def ofText (text : Text) : Number :=
  let text := trim text
  let (negative, magnitude) := splitSign text
  if text.isEmpty then zero
  else if magnitude = ofString "Infinity" then infinity negative
  else ((based? text).or (decimal? negative magnitude)).getD nan

end Number

end PhotoQuery
