/-!
# Outcome — results that may be errors

Every stage that may fail gives an `Except`.  A stage made of several ends well if and only if each
of them does, in turn.

Two runs are compared by `Agree`: either both end well, with related results, or both fail, with
related errors.  Stages that agree, one after the other, make up stages that agree.
-/

namespace PhotoQuery.Outcome

variable {ε ε' α α' β β' : Type}

@[simp] theorem ok_bind (a : α) (f : α → Except ε β) : (Except.ok a >>= f) = f a := rfl

@[simp] theorem error_bind (e : ε) (f : α → Except ε β) :
    (Except.error e >>= f) = Except.error e := rfl

@[simp] theorem map_ok (f : α → β) (a : α) : (Except.ok a : Except ε α).map f = .ok (f a) := rfl

@[simp] theorem map_error (f : α → β) (e : ε) :
    (Except.error e : Except ε α).map f = .error e := rfl

@[simp] theorem mapError_ok (f : ε → ε') (a : α) :
    (Except.ok a : Except ε α).mapError f = .ok a := rfl

@[simp] theorem mapError_error (f : ε → ε') (e : ε) :
    (Except.error e : Except ε α).mapError f = .error (f e) := rfl

theorem map_eq_bind (f : α → β) (x : Except ε α) : x.map f = x >>= fun a => .ok (f a) := by
  cases x <;> rfl

/-- Two stages end well if the first does, and the second does with its result. -/
theorem bind_eq_ok {x : Except ε α} {f : α → Except ε β} {b : β} :
    (x >>= f) = .ok b ↔ ∃ a, x = .ok a ∧ f a = .ok b := by
  cases x with
  | error e => simp
  | ok a => simp

/-- Two stages fail for what the first fails for, or else the second. -/
theorem bind_eq_error {x : Except ε α} {f : α → Except ε β} {e : ε} :
    (x >>= f) = .error e ↔ x = .error e ∨ ∃ a, x = .ok a ∧ f a = .error e := by
  cases x with
  | error e' => simp
  | ok a => simp

theorem map_eq_ok {x : Except ε α} {f : α → β} {b : β} :
    x.map f = .ok b ↔ ∃ a, x = .ok a ∧ f a = b := by
  cases x with
  | error e => simp
  | ok a => simp

/-- Changing a result keeps its errors. -/
theorem map_eq_error {x : Except ε α} {f : α → β} {e : ε} :
    x.map f = .error e ↔ x = .error e := by
  cases x with
  | error e' => simp
  | ok a => simp

theorem mapError_eq_ok {x : Except ε α} {f : ε → ε'} {a : α} :
    x.mapError f = .ok a ↔ x = .ok a := by
  cases x with
  | error e => simp
  | ok a => simp

theorem mapError_eq_error {x : Except ε α} {f : ε → ε'} {e' : ε'} :
    x.mapError f = .error e' ↔ ∃ e, x = .error e ∧ f e = e' := by
  cases x with
  | error e => simp
  | ok a => simp

/-- What never ends well is an error. -/
theorem eq_error_of_forall_ne_ok {x : Except ε α} (h : ∀ a, x ≠ .ok a) : ∃ e, x = .error e := by
  cases x with
  | error e => exact ⟨e, rfl⟩
  | ok a => exact absurd rfl (h a)

/-! ### Two runs -/

/-- Both results are good, and related by `R`, or both are errors, and related by `E`. -/
inductive Agree (E : ε → ε' → Prop) (R : α → α' → Prop) : Except ε α → Except ε' α' → Prop where
  | ok {a : α} {a' : α'} (h : R a a') : Agree E R (.ok a) (.ok a')
  | error {e : ε} {e' : ε'} (h : E e e') : Agree E R (.error e) (.error e')

namespace Agree

variable {E F : ε → ε' → Prop} {R : α → α' → Prop} {S : β → β' → Prop} {x : Except ε α}
  {x' : Except ε' α'}

theorem mono {R' : α → α' → Prop} (h : Agree E R x x') (hE : ∀ {e e'}, E e e' → F e e')
    (hR : ∀ {a a'}, R a a' → R' a a') : Agree F R' x x' := by
  cases h with
  | ok h => exact .ok (hR h)
  | error h => exact .error (hE h)

/-- Stages that agree, one after the other, make up runs that agree.  The second ones need to agree
only on related results. -/
theorem bind {f : α → Except ε β} {f' : α' → Except ε' β'} (h : Agree E R x x')
    (hf : ∀ {a a'}, R a a' → Agree E S (f a) (f' a')) : Agree E S (x >>= f) (x' >>= f') := by
  cases h with
  | ok h => exact hf h
  | error h => exact .error h

/-- Changing related results into related results keeps runs in agreement. -/
theorem map {f : α → β} {f' : α' → β'} (h : Agree E R x x')
    (hf : ∀ {a a'}, R a a' → S (f a) (f' a')) : Agree E S (x.map f) (x'.map f') := by
  cases h with
  | ok h => exact .ok (hf h)
  | error h => exact .error h

/-- Changing related errors into related errors keeps runs in agreement. -/
theorem mapError {δ δ' : Type} {G : δ → δ' → Prop} {f : ε → δ} {f' : ε' → δ'} (h : Agree E R x x')
    (hf : ∀ {e e'}, E e e' → G (f e) (f' e')) : Agree G R (x.mapError f) (x'.mapError f') := by
  cases h with
  | ok h => exact .ok h
  | error h => exact .error (hf h)

/-- Runs with the same errors fail together, and for the same. -/
theorem of_error_iff {x : Except ε α} {x' : Except ε α'}
    (h : ∀ e, x = .error e ↔ x' = .error e) : Agree Eq (fun _ _ => True) x x' := by
  cases x with
  | error e =>
    rw [(h e).mp rfl]
    exact .error rfl
  | ok a =>
    cases x' with
    | error e => cases (h e).mpr rfl
    | ok a' => exact .ok trivial

end Agree

end PhotoQuery.Outcome
