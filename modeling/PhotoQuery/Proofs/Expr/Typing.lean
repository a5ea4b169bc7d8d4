import PhotoQuery.Expr.Basic
import PhotoQuery.Function.Basic
import PhotoQuery.Proofs.Lookup
import PhotoQuery.Property.Basic

/-!
# Expr — kinds of trees

`Expr.HasKind e k` says that the tree `e` is well-typed and of the kind `k`.  It is a relation on
trees alone: it reads no photo, builds no reading, and knows nothing of the order in which a tree
is checked.

* A constant has its own kind, and a path the kind of the field that it names (`PathKind`).
* `not`, `and` and `or` join truth values.
* Two numbers, two strings or two dates can be compared by any operator, two truth values by the
  equalities only, and `null` with anything by the equalities only (`Comparable`).
* A function takes arguments of fixed kinds and gives a result of a fixed kind.

A foreign node has no kind.  `Child` and `Within` say where in a tree a node stands.
-/

namespace PhotoQuery

open Text

/-! ### Fields and paths -/

/-- The kind of the field's values. -/
def ImageField.kind : ImageField → Kind
  | .filename => .string
  | .width | .height => .integer
  | .dateTaken => .date

/-- The kind of the field's values. -/
def ExifField.kind : ExifField → Kind
  | .make | .model | .lensModel => .string
  | .dateTaken => .date
  | .iso => .integer
  | .fNumber | .exposureTime | .focalLength | .gpsLatitude | .gpsLongitude => .decimal

/-- The kind of what a path names. -/
inductive PathKind : List Text → Kind → Prop where
  | image {segment : Text} (field : ImageField) (h : segment.IsNamed field.name) :
      PathKind [segment] field.kind
  | exif {root segment : Text} (field : ExifField) (hr : root.IsNamed "exif")
      (h : segment.IsNamed field.name) : PathKind [root, segment] field.kind
  | raw {root segment : Text} (tag : Text) (hr : root.IsNamed "exif") (h : segment.IsNamed "raw") :
      PathKind [root, segment, tag] .string

/-! ### Trees -/

/-- The kind of a literal. -/
def Constant.kind : Constant → Kind
  | .string _ => .string
  | .integer _ => .integer
  | .decimal _ => .decimal
  | .boolean _ => .boolean
  | .null => .null

/-- The kinds of numbers. -/
inductive Kind.IsNumber : Kind → Prop where
  | integer : IsNumber .integer
  | decimal : IsNumber .decimal

/-- The operator only asks whether two values are the same. -/
def Comparison.IsEquality (op : Comparison) : Prop := op = .equal ∨ op = .notEqual

/-- Sides of these kinds can be compared by the operator. -/
inductive Comparable : Comparison → Kind → Kind → Prop where
  | numbers {op : Comparison} {k k' : Kind} (h : k.IsNumber) (h' : k'.IsNumber) :
      Comparable op k k'
  | strings {op : Comparison} : Comparable op .string .string
  | dates {op : Comparison} : Comparable op .date .date
  | booleans {op : Comparison} (h : op.IsEquality) : Comparable op .boolean .boolean
  | nullLeft {op : Comparison} {k : Kind} (h : op.IsEquality) : Comparable op .null k
  | nullRight {op : Comparison} {k : Kind} (h : op.IsEquality) : Comparable op k .null

namespace Expr

/-- The tree is well-typed, and of the kind. -/
inductive HasKind : Expr → Kind → Prop where
  | constant (value : Constant) (position : Nat) : HasKind (.constant value position) value.kind
  | property {path : List Text} {k : Kind} (position : Nat) (h : PathKind path k) :
      HasKind (.property path position) k
  | negation {e : Expr} (position : Nat) (h : HasKind e .boolean) :
      HasKind (.negation position e) .boolean
  | logical {left right : Expr} (connective : Connective) (position : Nat)
      (hl : HasKind left .boolean) (hr : HasKind right .boolean) :
      HasKind (.logical connective position left right) .boolean
  | comparison {op : Comparison} {left right : Expr} {k k' : Kind} (position : Nat)
      (hl : HasKind left k) (hr : HasKind right k') (h : Comparable op k k') :
      HasKind (.comparison op position left right) .boolean
  | datePart {name : Text} {arg : Expr} (part : DatePart) (position : Nat)
      (hn : name.IsNamed (Function.name (.datePart part))) (h : HasKind arg .date) :
      HasKind (.call name position [arg]) .integer
  | stringTest {name : Text} {text needle : Expr} (test : StringTest) (position : Nat)
      (hn : name.IsNamed (Function.name (.stringTest test))) (ht : HasKind text .string)
      (h : HasKind needle .string) : HasKind (.call name position [text, needle]) .boolean
  | caseForm {name : Text} {arg : Expr} (form : CaseForm) (position : Nat)
      (hn : name.IsNamed (Function.name (.caseForm form))) (h : HasKind arg .string) :
      HasKind (.call name position [arg]) .string

/-! ### Places in a tree -/

/-- The first tree stands directly under the root of the second. -/
inductive Child : Expr → Expr → Prop where
  | left (connective : Connective) (position : Nat) (left right : Expr) :
      Child left (.logical connective position left right)
  | right (connective : Connective) (position : Nat) (left right : Expr) :
      Child right (.logical connective position left right)
  | compared (op : Comparison) (position : Nat) (left right : Expr) :
      Child left (.comparison op position left right)
  | comparedTo (op : Comparison) (position : Nat) (left right : Expr) :
      Child right (.comparison op position left right)
  | negated (position : Nat) (e : Expr) : Child e (.negation position e)
  | arg {e : Expr} {args : List Expr} (name : Text) (position : Nat) (he : e ∈ args) :
      Child e (.call name position args)

/-- The first tree is the second, or stands somewhere in it. -/
inductive Within : Expr → Expr → Prop where
  | refl (e : Expr) : Within e e
  | step {n m e : Expr} (h : Within n m) (hc : Child m e) : Within n e

/-- What stands in a part of a tree stands in the tree. -/
theorem Within.trans {a b c : Expr} (h : Within a b) (h' : Within b c) : Within a c := by
  induction h' with
  | refl => exact h
  | step _ hc ih => exact .step ih hc

/-- A property of trees holds of all of them if each node passes it on from its children. -/
@[elab_as_elim]
theorem induct {motive : Expr → Prop}
    (logical : ∀ connective position left right, motive left → motive right →
      motive (.logical connective position left right))
    (comparison : ∀ op position left right, motive left → motive right →
      motive (.comparison op position left right))
    (negation : ∀ position e, motive e → motive (.negation position e))
    (call : ∀ name position args, (∀ e ∈ args, motive e) → motive (.call name position args))
    (property : ∀ path position, motive (.property path position))
    (constant : ∀ value position, motive (.constant value position))
    (foreign : ∀ tag, motive (.foreign tag)) (e : Expr) : motive e :=
  @Expr.rec motive (fun es => ∀ e ∈ es, motive e) logical comparison negation call property
    constant foreign (List.forall_mem_nil _)
    (fun _ _ he hes => List.forall_mem_cons.mpr ⟨he, hes⟩) e

end Expr

end PhotoQuery
