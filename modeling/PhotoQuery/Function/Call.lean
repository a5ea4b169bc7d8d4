import PhotoQuery.Expr.Compiled
import PhotoQuery.Problem

/-!
# Function — calls

A call is checked in three steps: the function is looked up by its name, the number of the arguments
must be its arity, and each argument must have the kind that it takes.  Errors name the function as
the call spells it.

A string test is false where either argument is absent, so its result is never absent; the other
functions are absent where their argument is.
-/

namespace PhotoQuery

namespace Function

/-- The function of a name. -/
def named (name : Text) : Except SemanticError Function :=
  match ofName? name with
  | some function => .ok function
  | none => .error (.unknownFunction name)

/-- The call of the function, under the name that the source spells. -/
def call (function : Function) (name : Text) (position : Nat) (args : List Compiled) :
    Except SemanticError Compiled :=
  match function, args with
  | .datePart part, [date] =>
    match date.reading with
    | .date read =>
      .ok ⟨.integer fun photo => (read photo).map part.read, date.optional, position⟩
    | _ => .error (.needsDate name)
  | .stringTest test, [text, needle] =>
    match text.reading, needle.reading with
    | .string read, .string sought =>
      .ok ⟨.test fun photo =>
        match read photo, sought photo with
        | some t, some n => test.holds t n
        | _, _ => false, false, position⟩
    | .string _, _ => .error (.needsString .second name)
    | _, _ => .error (.needsString .first name)
  | .caseForm form, [text] =>
    match text.reading with
    | .string read =>
      .ok ⟨.string fun photo => (read photo).map form.apply, text.optional, position⟩
    | _ => .error (.needsString .only name)
  | function, _ => .error (.wrongArity name function.arity)

end Function

end PhotoQuery
