import PhotoQuery.Expr.Basic
import PhotoQuery.Function.Call
import PhotoQuery.Property.Path

/-!
# Expr — compiling predicates

`Expr.compile` turns a tree into a reading in one pass from the leaves up: names are looked up and
kinds are checked once, and reading a photo never looks at the tree again.  A tree that asks for
what no photo has, or joins kinds that do not go together, is refused with its first error, in the
order of the source; a call is refused for its name before its arguments are looked at.

`Expr.predicate` compiles a tree whose kind is boolean to the test that a query selects by.
-/

namespace PhotoQuery

/-- Reports an error at the position. -/
def reportAt {α : Type} (position : Nat) (result : Except SemanticError α) : Except Problem α :=
  result.mapError fun cause => .semantic ⟨position, cause⟩

namespace Constant

/-- How a constant is read: it is the same for every photo. -/
def reading : Constant → Reading
  | .string text => .string fun _ => some text
  | .integer number => .integer fun _ => some number
  | .decimal number => .decimal fun _ => some number
  | .boolean truth => .boolean fun _ => some truth
  | .null => .null

/-- The constant is absent. -/
def optional : Constant → Bool
  | .null => true
  | _ => false

end Constant

namespace Reading

/-- The comparison of two readings, if their kinds can be compared by the operator. -/
def compared (operator : Comparison) (left right : Reading) : Except SemanticError Reading :=
  match left, right with
  | .null, other | other, .null =>
    if operator.isEquality then .ok (presence operator other) else .error (.orderedNull operator)
  | .string l, .string r => .ok (present operator compare l r)
  | .date l, .date r => .ok (present operator orderDates l r)
  | .boolean l, .boolean r =>
    if operator.isEquality then .ok (present operator compare l r)
    else .error (.orderedBooleans operator)
  | left, right =>
    match left.number?, right.number? with
    | some l, some r => .ok (present operator orderNumbers l r)
    | _, _ => .error (.incomparable left.kind right.kind)

/-- The values, which must be truth values. -/
def asBoolean (reading : Reading) (position : Nat) (cause : SemanticError) :
    Except Problem (Image → Option Bool) :=
  match reading.boolean? with
  | some read => .ok read
  | none => .error (.semantic ⟨position, cause⟩)

end Reading

namespace Expr

mutual

/-- The tree as a reading. -/
def compile : Expr → Except Problem Compiled
  | .logical connective position left right => do
    let l ← compile left
    let r ← compile right
    let l ← l.reading.asBoolean left.position (.sideNotBoolean .left connective)
    let r ← r.reading.asBoolean right.position (.sideNotBoolean .right connective)
    .ok ⟨.joined connective l r, false, position⟩
  | .comparison operator position left right => do
    let l ← compile left
    let r ← compile right
    let reading ← reportAt position (Reading.compared operator l.reading r.reading)
    .ok ⟨reading, false, position⟩
  | .negation position operand => do
    let o ← compile operand
    let read ← o.reading.asBoolean operand.position .operandNotBoolean
    .ok ⟨.negated read, false, position⟩
  | .call name position args => do
    let function ← reportAt position (Function.named name)
    let args ← compileAll args
    reportAt position (function.call name position args)
  | .property path position => do
    let property ← reportAt position (Property.ofPath path)
    .ok ⟨property.reading, property.optional, position⟩
  | .constant value position => .ok ⟨value.reading, value.optional, position⟩
  | .foreign tag => .error (.foreignNode tag)

/-- The trees as readings, from left to right. -/
def compileAll : List Expr → Except Problem (List Compiled)
  | [] => .ok []
  | e :: es => do
    let c ← compile e
    let cs ← compileAll es
    .ok (c :: cs)

end

/-- The tree as a test of photos, if it is one. -/
def predicate (e : Expr) : Except Problem (Image → Bool) := do
  let c ← compile e
  let read ← c.reading.asBoolean e.position .predicateNotBoolean
  .ok fun photo => read photo == some true

end Expr

end PhotoQuery
