import Mathlib.Data.List.Forall2
import PhotoQuery.Proofs.Expr.Compiling

/-!
# Expr — names in other cases

A name in a tree stands for what it is found under, and names are found in capital or small
letters.  Two trees are recased (`Expr.Recased`) if they differ in the spelling of their names only,
the functions have the same names in small letters, and what a path of the first names, the path in
its place in the second names too.

A tree that compiles to something is recased to trees that compile to the same
(`Expr.Recased.compile`).  The converse fails for paths that name nothing.
-/

namespace PhotoQuery

open Text Outcome

/-! ### Recased trees -/

/-- What the first path names, the second one names too. -/
def Property.Renames (path path' : List Text) : Prop :=
  ∀ p : Property, Property.Names path p → Property.Names path' p

/-- The second tree is the first one with the names spelled in other cases. -/
inductive Expr.Recased : Expr → Expr → Prop where
  | logical {l l' r r' : Expr} (connective : Connective) (position : Nat) (hl : Recased l l')
      (hr : Recased r r') :
      Recased (.logical connective position l r) (.logical connective position l' r')
  | comparison {l l' r r' : Expr} (op : Comparison) (position : Nat) (hl : Recased l l')
      (hr : Recased r r') :
      Recased (.comparison op position l r) (.comparison op position l' r')
  | negation {e e' : Expr} (position : Nat) (h : Recased e e') :
      Recased (.negation position e) (.negation position e')
  | call {name name' : Text} {args args' : List Expr} (position : Nat)
      (lower : name'.lower = name.lower) (length : args.length = args'.length)
      (ha : ∀ {a a'}, (a, a') ∈ args.zip args' → Recased a a') :
      Recased (.call name position args) (.call name' position args')
  | property {path path' : List Text} (position : Nat) (h : Property.Renames path path') :
      Recased (.property path position) (.property path' position)
  | constant (value : Constant) (position : Nat) :
      Recased (.constant value position) (.constant value position)

namespace Expr

theorem Recased.position {e e' : Expr} (h : e.Recased e') : e'.position = e.position := by
  cases h <;> rfl

theorem Recased.ofCall {name name' : Text} {args args' : List Expr} (position : Nat)
    (lower : name'.lower = name.lower) (h : List.Forall₂ Recased args args') :
    Recased (.call name position args) (.call name' position args') :=
  .call position lower h.length_eq fun ha => (List.forall₂_iff_zip.mp h).2 ha

end Expr

/-! ### Compiling recased trees -/

/-- A name that is the same in small letters names the same. -/
theorem Text.IsNamed.of_lower {name name' : Text} {known : String} (h : name.IsNamed known)
    (lower : name'.lower = name.lower) : name'.IsNamed known := lower.trans h

/-- The name of a call is only spelled out where the call is refused. -/
theorem Function.call_recased (f : Function) {name : Text} (name' : Text) {position : Nat}
    {args : List Compiled} {c : Compiled} (h : f.call name position args = .ok c) :
    f.call name' position args = .ok c := by
  unfold Function.call at h ⊢
  split at h
  · split at h
    · exact h
    · cases h
  · split at h
    · exact h
    · cases h
    · cases h
  · split at h
    · exact h
    · cases h
  · cases h

namespace Expr

theorem compileAll_recased {args args' : List Expr} {cs : List Compiled}
    (h : List.Forall₂ (fun e e' => ∀ {c}, compile e = .ok c → compile e' = .ok c) args args')
    (hc : compileAll args = .ok cs) : compileAll args' = .ok cs := by
  induction h generalizing cs with
  | nil => exact hc
  | cons he _ ih =>
    rw [compileAll] at hc
    obtain ⟨c, first, hc⟩ := bind_eq_ok.mp hc
    obtain ⟨cs, others, hc⟩ := bind_eq_ok.mp hc
    rw [compileAll, he first, ok_bind, ih others]
    exact hc

/-- **Names in other cases are the same names**: a recased tree compiles to what the tree does. -/
theorem Recased.compile {e e' : Expr} (h : e.Recased e') {c : Compiled}
    (hc : Expr.compile e = .ok c) : Expr.compile e' = .ok c := by
  induction h generalizing c with
  | logical connective position hl hr ihl ihr =>
    rw [Expr.compile] at hc
    obtain ⟨l, left, hc⟩ := bind_eq_ok.mp hc
    obtain ⟨r, right, hc⟩ := bind_eq_ok.mp hc
    rw [Expr.compile, ihl left, ok_bind, ihr right, ok_bind, hl.position, hr.position]
    exact hc
  | comparison op position _ _ ihl ihr =>
    rw [Expr.compile] at hc
    obtain ⟨l, left, hc⟩ := bind_eq_ok.mp hc
    obtain ⟨r, right, hc⟩ := bind_eq_ok.mp hc
    rw [Expr.compile, ihl left, ok_bind, ihr right]
    exact hc
  | negation position h ih =>
    rw [Expr.compile] at hc
    obtain ⟨o, operand, hc⟩ := bind_eq_ok.mp hc
    rw [Expr.compile, ih operand, ok_bind, h.position]
    exact hc
  | call position lower length _ ih =>
    rw [Expr.compile] at hc
    obtain ⟨f, found, hc⟩ := bind_eq_ok.mp hc
    obtain ⟨cs, compiled, hc⟩ := bind_eq_ok.mp hc
    -- the function is found under either name, and makes the same of the arguments
    have named := (Function.isNamed_of_named (reportAt_eq_ok.mp found)).of_lower lower
    have compiled' := compileAll_recased (List.forall₂_iff_zip.mpr ⟨length, ih⟩) compiled
    rw [Expr.compile, reportAt_eq_ok.mpr (Function.named_of_isNamed named), ok_bind, compiled',
      ok_bind]
    exact reportAt_eq_ok.mpr (f.call_recased _ (reportAt_eq_ok.mp hc))
  | property position h =>
    rw [Expr.compile] at hc
    obtain ⟨property, found, hc⟩ := bind_eq_ok.mp hc
    have names := h property (Property.ofPath_eq_ok.mp (reportAt_eq_ok.mp found))
    rw [Expr.compile, reportAt_eq_ok.mpr (Property.ofPath_eq_ok.mpr names)]
    exact hc
  | constant value position => exact hc

/-- A recased tree is the same test of photos. -/
theorem Recased.predicate {e e' : Expr} (h : e.Recased e') {holds : Image → Bool}
    (hp : e.predicate = .ok holds) : e'.predicate = .ok holds := by
  obtain ⟨c, compiled, hp⟩ := bind_eq_ok.mp hp
  rw [Expr.predicate, h.compile compiled, ok_bind, h.position]
  exact hp

end Expr

end PhotoQuery
