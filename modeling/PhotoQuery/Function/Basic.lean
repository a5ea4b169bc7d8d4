import PhotoQuery.Text.Case
import PhotoQuery.Timestamp

/-!
# Function — the built-in functions

Three families: the parts of a date, the tests of one string against another, and the two case
forms of a string.  Date parts are those of universal time; a date that is invalid has parts that
are not numbers.  The tests ignore case.
-/

namespace PhotoQuery

/-- The parts of a date. -/
inductive DatePart where
  | year
  | month
  | day
deriving DecidableEq

/-- The part of a date, as a number. -/
def DatePart.read (part : DatePart) (date : Timestamp) : Number :=
  match date.day? with
  | none => .nan
  | some d => .ofInt <| match part with
    | .year => d.year
    | .month => d.month
    | .day => d.day

/-- The tests of a string against another. -/
inductive StringTest where
  | contains
  | startsWith
  | endsWith
deriving DecidableEq

/-- The test, with both strings in small letters. -/
def StringTest.holds (test : StringTest) (text needle : Text) : Bool :=
  match test with
  | .contains => text.lower.contains needle.lower
  | .startsWith => needle.lower.isPrefixOf text.lower
  | .endsWith => needle.lower.isSuffixOf text.lower

/-- The case forms of a string. -/
inductive CaseForm where
  | lower
  | upper
deriving DecidableEq

/-- The string in this case. -/
def CaseForm.apply : CaseForm → Text → Text
  | .lower => Text.lower
  | .upper => Text.upper

/-- The functions that a query may call. -/
inductive Function where
  | datePart (part : DatePart)
  | stringTest (test : StringTest)
  | caseForm (form : CaseForm)
deriving DecidableEq

namespace Function

/-- The functions, in the order in which messages list them. -/
def all : List Function :=
  [.datePart .year, .datePart .month, .datePart .day, .stringTest .contains,
    .stringTest .startsWith, .stringTest .endsWith, .caseForm .lower, .caseForm .upper]

/-- The function as messages name it. -/
def name : Function → String
  | .datePart .year => "year"
  | .datePart .month => "month"
  | .datePart .day => "day"
  | .stringTest .contains => "contains"
  | .stringTest .startsWith => "starts_with"
  | .stringTest .endsWith => "ends_with"
  | .caseForm .lower => "lower"
  | .caseForm .upper => "upper"

/-- The number of arguments that the function takes. -/
def arity : Function → Nat
  | .stringTest _ => 2
  | _ => 1

/-- The function of a name, in capital or small letters. -/
def ofName? (name : Text) : Option Function :=
  all.find? fun f => name.lower == .ofString f.name

end Function

end PhotoQuery
