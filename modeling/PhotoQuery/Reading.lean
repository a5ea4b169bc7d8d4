import PhotoQuery.Image
import PhotoQuery.Kind
import PhotoQuery.Operator

/-!
# Reading — typed reading of photos

A reading takes a value of one kind off a photo, or finds it absent.  Properties and constants are
readings, and the operators of the language build readings from readings.

* `Reading.present` compares two readings.  Where either is absent, no comparison holds, `!=` not
  excepted.  Two values that cannot be ordered, because one is not a number or not a date, count as
  equal.
* `Reading.presence` is a comparison with `null`, the only way to ask for absence.
-/

namespace PhotoQuery

/-- A way to read values of one kind. -/
inductive Reading where
  | string (read : Image → Option Text)
  | integer (read : Image → Option Number)
  | decimal (read : Image → Option Number)
  | boolean (read : Image → Option Bool)
  | date (read : Image → Option Timestamp)
  | null

namespace Reading

/-- The kind of the values. -/
def kind : Reading → Kind
  | .string _ => .string
  | .integer _ => .integer
  | .decimal _ => .decimal
  | .boolean _ => .boolean
  | .date _ => .date
  | .null => .null

/-- The value that a photo has, unless it is absent. -/
def value (reading : Reading) (photo : Image) : Option Value :=
  match reading with
  | .string read => (read photo).map .string
  | .integer read => (read photo).map .number
  | .decimal read => (read photo).map .number
  | .boolean read => (read photo).map .boolean
  | .date read => (read photo).map .date
  | .null => none

/-- The values, if they are numbers. -/
def number? : Reading → Option (Image → Option Number)
  | .integer read => some read
  | .decimal read => some read
  | _ => none

/-- The values, if they are truth values. -/
def boolean? : Reading → Option (Image → Option Bool)
  | .boolean read => some read
  | _ => none

/-- A test of photos, as a reading that is never absent. -/
def test (holds : Image → Bool) : Reading := .boolean fun photo => some (holds photo)

/-- The comparison of two values that are both there; it fails where one is not. -/
def present {α : Type} (operator : Comparison) (order : α → α → Ordering)
    (left right : Image → Option α) : Reading :=
  test fun photo =>
    match left photo, right photo with
    | some a, some b => operator.holds (order a b)
    | _, _ => false

/-- The order of two numbers, or `eq` if they have none. -/
def orderNumbers (a b : Number) : Ordering := (Number.compare? a b).getD .eq

/-- The order of two dates, or `eq` if they have none. -/
def orderDates (a b : Timestamp) : Ordering := (Timestamp.compare? a b).getD .eq

/-- The comparison of a reading with `null`: equal to it means absent. -/
def presence (operator : Comparison) (reading : Reading) : Reading :=
  test fun photo => (reading.value photo).isNone == operator.holds .eq

/-- The connective of two readings of truth values. -/
def joined (connective : Connective) (left right : Image → Option Bool) : Reading :=
  test fun photo => connective.holds (left photo == some true) (right photo == some true)

/-- The negation of a reading of truth values. -/
def negated (read : Image → Option Bool) : Reading := test fun photo => read photo != some true

end Reading

end PhotoQuery
