import Mathlib.Data.List.Infix
import PhotoQuery.Expr.Basic
import PhotoQuery.Image
import PhotoQuery.Kind
import PhotoQuery.Proofs.Lookup

/-!
# Expr — direct interpretation

`Expr.interpret` says what a tree comes to on one photo by walking the tree.  It knows no kinds and
no readings: it finds names when it comes to them, and looks at the values that it has got there.

What it comes to is `some (some v)`, the value `v`; or `some none`, absence; or `none`, where the
tree makes no sense of the photo: a name is unknown, or an operator or a function meets values that
it has no answer for.

* A comparison with an absent side is false, whatever the operator; only `==` and `!=` with the
  literal `null` ask whether a side is absent.  Of two values that are there, neither of which comes
  before the other, both are taken as equal.
* The connectives are those of truth values.
* Date parts and case forms are absent where their argument is; string tests compare small letters,
  and are false where an argument is absent.
* Names are in capital or small letters, except those of raw tags.  In a photo without an EXIF block
  every field of the block is absent.
-/

namespace PhotoQuery

open Text

namespace Interpreter

/-! ### Names -/

/-- The entry of a table under a name, in capital or small letters. -/
def named? {α : Type} (table : List (String × α)) (name : Text) : Option α :=
  (table.find? fun row => name.lower = (ofString row.1).lower).map Prod.snd

/-- What a photo's record holds, by name. -/
def imageFields (photo : Image) : List (String × Option Value) :=
  [("filename", some (.string photo.filename)),
    ("width", some (.number photo.width)),
    ("height", some (.number photo.height)),
    ("dateTaken", photo.dateTaken.map .date)]

/-- What an EXIF block holds, by name. -/
def exifFields (block : Exif) : List (String × Option Value) :=
  [("make", block.make.map .string),
    ("model", block.model.map .string),
    ("lensModel", block.lensModel.map .string),
    ("dateTaken", block.dateTaken.map .date),
    ("fNumber", block.fNumber.map .number),
    ("exposureTime", block.exposureTime.map .number),
    ("iso", block.iso.map .number),
    ("focalLength", block.focalLength.map .number),
    ("gpsLatitude", block.gpsLatitude.map .number),
    ("gpsLongitude", block.gpsLongitude.map .number)]

/-- What a photo holds under a path.  A photo without an EXIF block is read like one whose block is
empty. -/
def under (photo : Image) : List Text → Option (Option Value)
  | [name] => named? (imageFields photo) name
  | [root, name] =>
    if root.IsNamed "exif" then named? (exifFields (photo.exif.getD {})) name else none
  | [root, name, tag] =>
    if root.IsNamed "exif" ∧ name.IsNamed "raw" then
      match photo.exif.bind (·.raw) with
      | some tags => some ((tags.lookup tag).map .string)
      | none => some none
    else none
  | _ => none

/-! ### Functions -/

/-- A function of dates; of an invalid date, no part is a number. -/
def partOf (part : CalendarDay → Int) : Value → Option Value
  | .date date => some (.number (date.day?.elim .nan fun day => .ofInt (part day)))
  | _ => none

/-- A function of strings. -/
def formOf (form : Text → Text) : Value → Option Value
  | .string text => some (.string (form text))
  | _ => none

/-- The call of a function of one argument that absence passes through. -/
def passing (f : Value → Option Value) : List (Option Value) → Option (Option Value)
  | [none] => some none
  | [some v] => (f v).map some
  | _ => none

/-- The call of a test of two strings, in small letters. -/
def testing (holds : Text → Text → Bool) : List (Option Value) → Option (Option Value)
  | [some (.string text), some (.string needle)] =>
    some (some (.boolean (holds text.lower needle.lower)))
  | [none, _] | [_, none] => some (some (.boolean false))
  | _ => none

/-- The built-in functions, by name. -/
def builtins : List (String × (List (Option Value) → Option (Option Value))) :=
  [("year", passing (partOf (·.year))),
    ("month", passing (partOf (·.month))),
    ("day", passing (partOf (·.day))),
    ("contains", testing fun text needle => needle <:+: text),
    ("starts_with", testing fun text needle => needle <+: text),
    ("ends_with", testing fun text needle => needle <:+ text),
    ("lower", passing (formOf lower)),
    ("upper", passing (formOf upper))]

/-! ### Truth values -/

/-- The truth value that a side is, if it is one. -/
def truth? : Option Value → Option Bool
  | some (.boolean truth) => some truth
  | _ => none

end Interpreter

/-! ### Operators -/

namespace Comparison

/-- The comparison of two values, from whether the first comes before the second or after it. -/
def ofOrder : Comparison → (before after : Bool) → Bool
  | .equal, before, after => !before && !after
  | .notEqual, before, after => before || after
  | .less, before, _ => before
  | .lessOrEqual, _, after => !after
  | .greater, _, after => after
  | .greaterOrEqual, before, _ => !before

/-- The comparison of two truth values, which have no order. -/
def ofTruths : Comparison → Bool → Bool → Option Bool
  | .equal, a, b => some (a == b)
  | .notEqual, a, b => some (a != b)
  | _, _, _ => none

/-- The comparison of two values that are there. -/
def ofValues (op : Comparison) : Value → Value → Option Bool
  | .number a, .number b =>
    some (op.ofOrder (Number.compare? a b == some .lt) (Number.compare? b a == some .lt))
  | .string a, .string b => some (op.ofOrder (a < b) (b < a))
  | .date a, .date b =>
    some (op.ofOrder (Timestamp.compare? a b == some .lt) (Timestamp.compare? b a == some .lt))
  | .boolean a, .boolean b => op.ofTruths a b
  | _, _ => none

/-- The comparison of two sides that may be absent. -/
def ofSides (op : Comparison) : Option Value → Option Value → Option Bool
  | some a, some b => op.ofValues a b
  | _, _ => some false

/-- The comparison of a side with the literal `null`. -/
def ofAbsence : Comparison → Option Value → Option Bool
  | .equal, side => some side.isNone
  | .notEqual, side => some side.isSome
  | _, _ => none

/-- The comparison of two sides, either of which may be the literal `null`. -/
def ofOperands (op : Comparison) (nullLeft nullRight : Bool) (left right : Option Value) :
    Option Bool :=
  if nullLeft then op.ofAbsence right
  else if nullRight then op.ofAbsence left
  else op.ofSides left right

end Comparison

/-- The connective of two truth values. -/
def Connective.ofTruths : Connective → Bool → Bool → Bool
  | .and, a, b => a && b
  | .or, a, b => a || b

/-! ### Trees -/

/-- The value of a literal; `null` is absent. -/
def Constant.held : Constant → Option Value
  | .string text => some (.string text)
  | .integer number => some (.number number)
  | .decimal number => some (.number number)
  | .boolean truth => some (.boolean truth)
  | .null => none

namespace Expr

open Interpreter

/-- The tree is the literal `null`. -/
def isNull : Expr → Bool
  | .constant .null _ => true
  | _ => false

mutual

/-- What the tree comes to on the photo. -/
def interpret (photo : Image) : Expr → Option (Option Value)
  | .constant value _ => some value.held
  | .property path _ => under photo path
  | .negation _ e => do
    let truth ← truth? (← interpret photo e)
    some (some (.boolean !truth))
  | .logical connective _ left right => do
    let a ← truth? (← interpret photo left)
    let b ← truth? (← interpret photo right)
    some (some (.boolean (connective.ofTruths a b)))
  | .comparison op _ left right => do
    let a ← interpret photo left
    let b ← interpret photo right
    let truth ← op.ofOperands left.isNull right.isNull a b
    some (some (.boolean truth))
  | .call name _ args => do
    let function ← named? builtins name
    function (← interpretAll photo args)
  | .foreign _ => none

/-- What the trees come to on the photo, from left to right. -/
def interpretAll (photo : Image) : List Expr → Option (List (Option Value))
  | [] => some []
  | e :: es => do
    let value ← interpret photo e
    let values ← interpretAll photo es
    some (value :: values)

end

end Expr

end PhotoQuery
