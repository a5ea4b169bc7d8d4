import Mathlib.Data.List.Forall2
import PhotoQuery.Expr.Compile
import PhotoQuery.Proofs.Outcome

/-!
# Expr — positions

A node knows its position so that errors about it can be located, and for nothing else.  Two trees
are alike (`Expr.Alike R`) if they differ in their positions only, and each position of the first is
related by `R` to the one in its place in the second.

Alike trees compile to the same readings, or are refused for the same cause (`Expr.compile_alike`,
`Expr.predicate_alike`).  With the relation that always holds, this says that positions never decide
anything; with a smaller one, it says in addition where the errors are located.
-/

namespace PhotoQuery

open Outcome

variable {R : Nat → Nat → Prop}

/-! ### Alike trees -/

/-- The trees differ in their positions only, and these are related.  A foreign node has no
position, and errors about it would be reported at the start. -/
inductive Expr.Alike (R : Nat → Nat → Prop) : Expr → Expr → Prop where
  | logical {p p' : Nat} {l l' r r' : Expr} (connective : Connective) (hp : R p p')
      (hl : Alike R l l') (hr : Alike R r r') :
      Alike R (.logical connective p l r) (.logical connective p' l' r')
  | comparison {p p' : Nat} {l l' r r' : Expr} (operator : Comparison) (hp : R p p')
      (hl : Alike R l l') (hr : Alike R r r') :
      Alike R (.comparison operator p l r) (.comparison operator p' l' r')
  | negation {p p' : Nat} {e e' : Expr} (hp : R p p') (h : Alike R e e') :
      Alike R (.negation p e) (.negation p' e')
  | call {p p' : Nat} {args args' : List Expr} (name : Text) (hp : R p p')
      (length : args.length = args'.length)
      (ha : ∀ {a a'}, (a, a') ∈ args.zip args' → Alike R a a') :
      Alike R (.call name p args) (.call name p' args')
  | property {p p' : Nat} (path : List Text) (hp : R p p') :
      Alike R (.property path p) (.property path p')
  | constant {p p' : Nat} (value : Constant) (hp : R p p') :
      Alike R (.constant value p) (.constant value p')
  | foreign (tag : Text) (hp : R 0 0) : Alike R (.foreign tag) (.foreign tag)

theorem Expr.Alike.position {e e' : Expr} (h : e.Alike R e') : R e.position e'.position := by
  cases h <;> assumption

theorem Expr.Alike.ofCall {p p' : Nat} {args args' : List Expr} (name : Text) (hp : R p p')
    (h : List.Forall₂ (Alike R) args args') : Alike R (.call name p args) (.call name p' args') :=
  .call name hp h.length_eq fun ha => (List.forall₂_iff_zip.mp h).2 ha

/-! ### Alike results -/

/-- The checked expressions differ in their positions only, and these are related. -/
structure Compiled.Alike (R : Nat → Nat → Prop) (c c' : Compiled) : Prop where
  reading : c.reading = c'.reading
  optional : c.optional = c'.optional
  position : R c.position c'.position

/-- The problems of two trees have one cause, and are reported at related positions. -/
inductive Problem.Alike (R : Nat → Nat → Prop) : Problem → Problem → Prop where
  | semantic {p p' : Nat} (cause : SemanticError) (hp : R p p') :
      Alike R (.semantic ⟨p, cause⟩) (.semantic ⟨p', cause⟩)
  | foreignNode (tag : Text) : Alike R (.foreignNode tag) (.foreignNode tag)

/-- Errors of one cause, reported at related positions, are alike. -/
theorem reportAt_alike {α β : Type} {S : α → β → Prop} {p p' : Nat} (hp : R p p')
    {x : Except SemanticError α} {x' : Except SemanticError β} (h : Agree Eq S x x') :
    Agree (Problem.Alike R) S (reportAt p x) (reportAt p' x') :=
  h.mapError fun he => he ▸ .semantic _ hp

/-- A lookup that does not depend on positions is alike for both trees. -/
theorem reportAt_same {α : Type} {p p' : Nat} (hp : R p p') (x : Except SemanticError α) :
    Agree (Problem.Alike R) Eq (reportAt p x) (reportAt p' x) := by
  refine reportAt_alike hp ?_
  cases x with
  | ok a => exact .ok rfl
  | error e => exact .error rfl

/-- A reading is taken as truth values in both trees, or refused in both. -/
theorem Reading.asBoolean_alike {r r' : Reading} (hr : r = r') {p p' : Nat} (hp : R p p')
    (cause : SemanticError) :
    Agree (Problem.Alike R) Eq (r.asBoolean p cause) (r'.asBoolean p' cause) := by
  subst hr
  cases r with
  | boolean read => exact .ok rfl
  | _ => exact .error (.semantic cause hp)

/-- A call looks at the readings of its arguments, not at where they stand. -/
theorem Function.call_alike (f : Function) (name : Text) {p p' : Nat} (hp : R p p')
    {cs cs' : List Compiled} (h : List.Forall₂ (Compiled.Alike R) cs cs') :
    Agree Eq (Compiled.Alike R) (f.call name p cs) (f.call name p' cs') := by
  cases f with
  | datePart part =>
    rcases h with _ | @⟨⟨reading, _, _⟩, ⟨_, _, _⟩, _, _, ⟨rfl, rfl, -⟩, _ | _⟩
    · exact .error rfl
    · cases reading with
      | date read => exact .ok ⟨rfl, rfl, hp⟩
      | _ => exact .error rfl
    · exact .error rfl
  | stringTest test =>
    rcases h with _ | @⟨⟨text, _, _⟩, ⟨_, _, _⟩, _, _, ⟨rfl, rfl, -⟩,
      _ | @⟨⟨needle, _, _⟩, ⟨_, _, _⟩, _, _, ⟨rfl, rfl, -⟩, _ | _⟩⟩
    · exact .error rfl
    · exact .error rfl
    · cases text with
      | string read =>
        cases needle with
        | string sought => exact .ok ⟨rfl, rfl, hp⟩
        | _ => exact .error rfl
      | _ => exact .error rfl
    · exact .error rfl
  | caseForm form =>
    rcases h with _ | @⟨⟨reading, _, _⟩, ⟨_, _, _⟩, _, _, ⟨rfl, rfl, -⟩, _ | _⟩
    · exact .error rfl
    · cases reading with
      | string read => exact .ok ⟨rfl, rfl, hp⟩
      | _ => exact .error rfl
    · exact .error rfl

/-! ### Compiling alike trees -/

namespace Expr

theorem compileAll_alike {args args' : List Expr}
    (h : List.Forall₂ (fun e e' => Agree (Problem.Alike R) (Compiled.Alike R) e.compile e'.compile)
      args args') :
    Agree (Problem.Alike R) (List.Forall₂ (Compiled.Alike R)) (compileAll args)
      (compileAll args') := by
  induction h with
  | nil =>
    rw [compileAll]
    exact .ok .nil
  | cons he _ ih =>
    rw [compileAll, compileAll]
    exact he.bind fun hc => ih.bind fun hcs => .ok (.cons hc hcs)

/-- **Alike trees compile alike**: to one reading, or to a problem of one cause. -/
theorem compile_alike {e e' : Expr} (h : e.Alike R e') :
    Agree (Problem.Alike R) (Compiled.Alike R) e.compile e'.compile := by
  induction h with
  | logical connective hp hl hr ihl ihr =>
    rw [compile, compile]
    -- the stages of the two compilations agree one by one
    refine ihl.bind fun left => ihr.bind fun right => ?_
    refine (Reading.asBoolean_alike left.reading hl.position _).bind ?_
    rintro readLeft _ rfl
    refine (Reading.asBoolean_alike right.reading hr.position _).bind ?_
    rintro readRight _ rfl
    exact .ok ⟨rfl, rfl, hp⟩
  | comparison operator hp _ _ ihl ihr =>
    rw [compile, compile]
    refine ihl.bind fun left => ihr.bind fun right => ?_
    rw [left.reading, right.reading]
    refine (reportAt_same hp _).bind ?_
    rintro reading _ rfl
    exact .ok ⟨rfl, rfl, hp⟩
  | negation hp h ih =>
    rw [compile, compile]
    refine ih.bind fun operand => ?_
    refine (Reading.asBoolean_alike operand.reading h.position _).bind ?_
    rintro read _ rfl
    exact .ok ⟨rfl, rfl, hp⟩
  | call name hp length _ ih =>
    rw [compile, compile]
    refine (reportAt_same hp _).bind ?_
    rintro function _ rfl
    refine (compileAll_alike (List.forall₂_iff_zip.mpr ⟨length, ih⟩)).bind fun hcs => ?_
    exact reportAt_alike hp (function.call_alike name hp hcs)
  | property path hp =>
    rw [compile, compile]
    refine (reportAt_same hp _).bind ?_
    rintro property _ rfl
    exact .ok ⟨rfl, rfl, hp⟩
  | constant value hp =>
    rw [compile, compile]
    exact .ok ⟨rfl, rfl, hp⟩
  | foreign tag =>
    rw [compile]
    exact .error (.foreignNode tag)

/-- Alike trees are the same test of photos, or no test for the same cause. -/
theorem predicate_alike {e e' : Expr} (h : e.Alike R e') :
    Agree (Problem.Alike R) Eq e.predicate e'.predicate := by
  refine (compile_alike h).bind fun compiled => ?_
  refine (Reading.asBoolean_alike compiled.reading h.position _).bind ?_
  rintro read _ rfl
  exact .ok rfl

end Expr

end PhotoQuery
