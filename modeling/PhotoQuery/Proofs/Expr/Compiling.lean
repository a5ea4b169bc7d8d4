import PhotoQuery.Expr.Compile
import PhotoQuery.Proofs.Outcome
import PhotoQuery.Proofs.Property.Path

/-!
# Expr — what trees compile to

`Expr.CompilesTo e c` says what the compiled form `c` of the tree `e` is made of, one rule for each
kind of node and each family of functions.  A compiled tree is compiled by one of the rules
(`Expr.compilesTo_of_compile`), so a property of compiled expressions is proved by induction on the
rules, and no such proof opens the compiler.

The sides of a comparison have a relation of their own, `Reading.Compares`: it lists the ways to
compare two readings, and each of them is a test of photos.
-/

namespace PhotoQuery

open Text Outcome

/-! ### Parts -/

theorem Reading.asBoolean_eq_ok {r : Reading} {position : Nat} {cause : SemanticError}
    {read : Image → Option Bool} :
    r.asBoolean position cause = .ok read ↔ r = .boolean read := by
  cases r with
  | boolean read' => simp [asBoolean, boolean?]
  | _ => simp [asBoolean, boolean?]

theorem Function.mem_all (f : Function) : f ∈ Function.all := by
  cases f with
  | datePart part => cases part <;> decide
  | stringTest test => cases test <;> decide
  | caseForm form => cases form <;> decide

/-- A name finds the function that it names; no two functions share one. -/
theorem Function.ofName?_eq_some {name : Text} {f : Function} :
    ofName? name = some f ↔ name.IsNamed f.name := by
  have small : ∀ f ∈ all, lower (ofString f.name) = ofString f.name := by decide
  have distinct : ∀ f ∈ all, ∀ f' ∈ all, ofString f.name = ofString f'.name → f = f' := by decide
  rw [IsNamed, small f f.mem_all]
  exact find?_key_eq_some distinct (fun _ => beq_iff_eq) f.mem_all

theorem Function.named_of_isNamed {name : Text} {f : Function} (h : name.IsNamed f.name) :
    Function.named name = .ok f := by
  rw [Function.named, Function.ofName?_eq_some.mpr h]

theorem Function.isNamed_of_named {name : Text} {f : Function} (h : Function.named name = .ok f) :
    name.IsNamed f.name := by
  rw [Function.named] at h
  split at h
  · rename_i found
    cases h
    exact Function.ofName?_eq_some.mp found
  · cases h

theorem reportAt_eq_ok {α : Type} {position : Nat} {x : Except SemanticError α} {a : α} :
    reportAt position x = .ok a ↔ x = .ok a := mapError_eq_ok

/-! ### Comparisons -/

namespace Reading

/-- The comparison of the first two readings is the third. -/
inductive Compares (op : Comparison) : Reading → Reading → Reading → Prop where
  | nullLeft (r : Reading) (h : op.isEquality) : Compares op .null r (presence op r)
  | nullRight (l : Reading) (h : op.isEquality) : Compares op l .null (presence op l)
  | strings (l r : Image → Option Text) :
      Compares op (.string l) (.string r) (present op compare l r)
  | dates (l r : Image → Option Timestamp) :
      Compares op (.date l) (.date r) (present op orderDates l r)
  | booleans (l r : Image → Option Bool) (h : op.isEquality) :
      Compares op (.boolean l) (.boolean r) (present op compare l r)
  | numbers {left right : Reading} {l r : Image → Option Number} (hl : left.number? = some l)
      (hr : right.number? = some r) : Compares op left right (present op orderNumbers l r)

/-- There are no other ways to compare two readings than those that are listed. -/
theorem compares_of_compared {op : Comparison} {l r c : Reading} (h : compared op l r = .ok c) :
    Compares op l r c := by
  -- by the kinds of the two sides, those of `null` first
  unfold compared at h
  split at h
  · split at h
    · rename_i he
      cases h
      exact .nullLeft _ he
    · cases h
  · split at h
    · rename_i he
      cases h
      exact .nullRight _ he
    · cases h
  · cases h
    exact .strings _ _
  · cases h
    exact .dates _ _
  · split at h
    · rename_i he
      cases h
      exact .booleans _ _ he
    · cases h
  · split at h
    · rename_i hl hr
      cases h
      exact .numbers hl hr
    · cases h

/-- A comparison is a test of photos. -/
theorem Compares.exists_test {op : Comparison} {l r c : Reading} (h : Compares op l r c) :
    ∃ holds, c = test holds := by
  cases h <;> exact ⟨_, rfl⟩

end Reading

/-! ### Trees -/

namespace Expr

theorem compileAll_cons {args : List Expr} {c : Compiled} {cs : List Compiled}
    (h : compileAll args = .ok (c :: cs)) :
    ∃ e es, args = e :: es ∧ compile e = .ok c ∧ compileAll es = .ok cs := by
  cases args with
  | nil => rw [compileAll] at h; cases h
  | cons e es =>
    rw [compileAll] at h
    obtain ⟨c', hc, h⟩ := bind_eq_ok.mp h
    obtain ⟨cs', hcs, he⟩ := bind_eq_ok.mp h
    cases he
    exact ⟨e, es, rfl, hc, hcs⟩

theorem compileAll_nil {args : List Expr} (h : compileAll args = .ok []) : args = [] := by
  cases args with
  | nil => rfl
  | cons e es =>
    rw [compileAll] at h
    obtain ⟨c, -, h⟩ := bind_eq_ok.mp h
    obtain ⟨cs, -, he⟩ := bind_eq_ok.mp h
    cases he

/-- The compiled form of the tree. -/
inductive CompilesTo : Expr → Compiled → Prop where
  | constant (value : Constant) (position : Nat) :
      CompilesTo (.constant value position) ⟨value.reading, value.optional, position⟩
  | property {path : List Text} {property : Property} (position : Nat)
      (h : Property.Names path property) :
      CompilesTo (.property path position) ⟨property.reading, property.optional, position⟩
  | negation {e : Expr} {read : Image → Option Bool} {optional : Bool} {place : Nat}
      (position : Nat) (h : CompilesTo e ⟨.boolean read, optional, place⟩) :
      CompilesTo (.negation position e) ⟨.negated read, false, position⟩
  | logical {left right : Expr} {l r : Image → Option Bool} {optionalLeft optionalRight : Bool}
      {placeLeft placeRight : Nat} (connective : Connective) (position : Nat)
      (hl : CompilesTo left ⟨.boolean l, optionalLeft, placeLeft⟩)
      (hr : CompilesTo right ⟨.boolean r, optionalRight, placeRight⟩) :
      CompilesTo (.logical connective position left right) ⟨.joined connective l r, false, position⟩
  | comparison {op : Comparison} {left right : Expr} {l r : Compiled} {reading : Reading}
      (position : Nat) (hl : CompilesTo left l) (hr : CompilesTo right r)
      (hc : Reading.Compares op l.reading r.reading reading) :
      CompilesTo (.comparison op position left right) ⟨reading, false, position⟩
  | datePart {name : Text} {arg : Expr} {read : Image → Option Timestamp} {optional : Bool}
      {place : Nat} (part : DatePart) (position : Nat)
      (hn : name.IsNamed (Function.name (.datePart part)))
      (h : CompilesTo arg ⟨.date read, optional, place⟩) :
      CompilesTo (.call name position [arg])
        ⟨.integer fun photo => (read photo).map part.read, optional, position⟩
  | stringTest {name : Text} {text needle : Expr} {read sought : Image → Option Text}
      {optionalText optionalNeedle : Bool} {placeText placeNeedle : Nat} (test : StringTest)
      (position : Nat) (hn : name.IsNamed (Function.name (.stringTest test)))
      (ht : CompilesTo text ⟨.string read, optionalText, placeText⟩)
      (h : CompilesTo needle ⟨.string sought, optionalNeedle, placeNeedle⟩) :
      CompilesTo (.call name position [text, needle])
        ⟨.test fun photo =>
          match read photo, sought photo with
          | some t, some n => test.holds t n
          | _, _ => false, false, position⟩
  | caseForm {name : Text} {arg : Expr} {read : Image → Option Text} {optional : Bool}
      {place : Nat} (form : CaseForm) (position : Nat)
      (hn : name.IsNamed (Function.name (.caseForm form)))
      (h : CompilesTo arg ⟨.string read, optional, place⟩) :
      CompilesTo (.call name position [arg])
        ⟨.string fun photo => (read photo).map form.apply, optional, position⟩

theorem CompilesTo.ofReading {e : Expr} {c : Compiled} {reading : Reading} (h : CompilesTo e c)
    (hr : c.reading = reading) : CompilesTo e ⟨reading, c.optional, c.position⟩ := hr ▸ h

/-- A call compiles to what its function makes of its arguments. -/
theorem compilesTo_of_call {name : Text} {position : Nat} {args : List Expr} {f : Function}
    {cs : List Compiled} {c : Compiled} (named : name.IsNamed f.name)
    (hcs : compileAll args = .ok cs)
    (ih : ∀ e ∈ args, ∀ c, compile e = .ok c → CompilesTo e c)
    (h : f.call name position cs = .ok c) : CompilesTo (.call name position args) c := by
  -- by the function and the number of its arguments; any other number is refused
  unfold Function.call at h
  split at h
  · rename_i part date
    split at h
    · rename_i read hd
      cases h
      obtain ⟨e, es, rfl, he, hes⟩ := compileAll_cons hcs
      obtain rfl := compileAll_nil hes
      exact .datePart part position named ((ih e (by simp) date he).ofReading hd)
    · cases h
  · rename_i test text needle
    split at h
    · rename_i read sought ht hn
      cases h
      obtain ⟨e, es, rfl, he, hes⟩ := compileAll_cons hcs
      obtain ⟨e', es', rfl, he', hes'⟩ := compileAll_cons hes
      obtain rfl := compileAll_nil hes'
      exact .stringTest test position named ((ih e (by simp) text he).ofReading ht)
        ((ih e' (by simp) needle he').ofReading hn)
    · cases h
    · cases h
  · rename_i form text
    split at h
    · rename_i read ht
      cases h
      obtain ⟨e, es, rfl, he, hes⟩ := compileAll_cons hcs
      obtain rfl := compileAll_nil hes
      exact .caseForm form position named ((ih e (by simp) text he).ofReading ht)
    · cases h
  · cases h

/-- **Inversion**: a tree that is compiled is compiled by one of the rules. -/
theorem compilesTo_of_compile {e : Expr} {c : Compiled} (h : e.compile = .ok c) :
    CompilesTo e c := by
  induction e using Expr.induct generalizing c with
  | logical connective position left right ihl ihr =>
    rw [compile] at h
    -- both sides are compiled before either is asked for truth values
    obtain ⟨l, hl, h⟩ := bind_eq_ok.mp h
    obtain ⟨r, hr, h⟩ := bind_eq_ok.mp h
    obtain ⟨readLeft, hbl, h⟩ := bind_eq_ok.mp h
    obtain ⟨readRight, hbr, he⟩ := bind_eq_ok.mp h
    cases he
    exact .logical connective position ((ihl hl).ofReading (Reading.asBoolean_eq_ok.mp hbl))
      ((ihr hr).ofReading (Reading.asBoolean_eq_ok.mp hbr))
  | comparison op position left right ihl ihr =>
    rw [compile] at h
    obtain ⟨l, hl, h⟩ := bind_eq_ok.mp h
    obtain ⟨r, hr, h⟩ := bind_eq_ok.mp h
    obtain ⟨reading, hc, he⟩ := bind_eq_ok.mp h
    cases he
    exact .comparison position (ihl hl) (ihr hr)
      (Reading.compares_of_compared (reportAt_eq_ok.mp hc))
  | negation position operand ih =>
    rw [compile] at h
    obtain ⟨o, ho, h⟩ := bind_eq_ok.mp h
    obtain ⟨read, hb, he⟩ := bind_eq_ok.mp h
    cases he
    exact .negation position ((ih ho).ofReading (Reading.asBoolean_eq_ok.mp hb))
  | call name position args ih =>
    rw [compile] at h
    obtain ⟨f, hf, h⟩ := bind_eq_ok.mp h
    obtain ⟨cs, hcs, hc⟩ := bind_eq_ok.mp h
    exact compilesTo_of_call (Function.isNamed_of_named (reportAt_eq_ok.mp hf)) hcs
      (fun e he c hc => ih e he hc) (reportAt_eq_ok.mp hc)
  | property path position =>
    rw [compile] at h
    obtain ⟨property, hp, he⟩ := bind_eq_ok.mp h
    cases he
    exact .property position (Property.ofPath_eq_ok.mp (reportAt_eq_ok.mp hp))
  | constant value position =>
    rw [compile] at h
    cases h
    exact .constant value position
  | foreign tag =>
    rw [compile] at h
    cases h

end Expr

end PhotoQuery
