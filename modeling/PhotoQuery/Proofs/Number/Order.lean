import PhotoQuery.Proofs.Number.Safe

/-!
# Number — the order of numbers

Numbers are compared by rank, that is by bit pattern.  This is the numeric order: written as a
multiple of the smallest positive number, a magnitude grows with its rank (`Rank.steps_lt_steps`),
and so does a number with its height (`Number.compare?_signed`).  Infinity has the place that
`2 ^ 1024` would have, above every finite magnitude.
-/

namespace PhotoQuery

namespace Rank

/-- A magnitude lies below the first one of the next binade. -/
theorem steps_lt (r : Rank) : r.steps < binade <<< (r.val / binade) := by
  have hB : 0 < binade := by decide
  by_cases h : r.val < binade
  · rw [steps, if_pos h, Nat.div_eq_of_lt h, Nat.shiftLeft_zero]
    exact h
  · have hm : r.val % binade < binade := Nat.mod_lt _ hB
    have he : 1 ≤ r.val / binade := (Nat.one_le_div_iff hB).mpr (by omega)
    have double : binade <<< (r.val / binade) = (2 * binade) <<< (r.val / binade - 1) := by
      rw [Nat.shiftLeft_eq, Nat.shiftLeft_eq, Nat.mul_comm 2, Nat.mul_assoc, ← Nat.pow_succ',
        Nat.succ_eq_add_one, Nat.sub_add_cancel he]
    rw [steps, if_neg h, double, Nat.shiftLeft_eq, Nat.shiftLeft_eq]
    exact Nat.mul_lt_mul_of_pos_right (by omega) (Nat.two_pow_pos _)

/-- A greater rank is a greater magnitude. -/
theorem steps_lt_steps {r q : Rank} (hv : r.val < q.val) : r.steps < q.steps := by
  have hB : 0 < binade := by decide
  rcases Nat.lt_or_ge (r.val / binade) (q.val / binade) with hlt | hge
  · -- in a lower binade, all magnitudes are smaller
    have one : 1 ≤ q.val / binade := Nat.lt_of_le_of_lt (Nat.zero_le _) hlt
    have low : binade <<< (q.val / binade - 1) ≤ q.steps := by
      refine le_steps ?_
      rw [Nat.sub_add_cancel one]
      exact Nat.div_mul_le_self _ _
    have step : binade <<< (r.val / binade) ≤ binade <<< (q.val / binade - 1) :=
      shiftLeft_mono (Nat.le_refl _) (Nat.le_sub_one_of_lt hlt)
    exact Nat.lt_of_lt_of_le (steps_lt r) (Nat.le_trans step low)
  · -- in the same binade, the units decide
    have he : r.val / binade = q.val / binade :=
      Nat.le_antisymm (Nat.div_le_div_right (Nat.le_of_lt hv)) hge
    have hr := Nat.div_add_mod r.val binade
    have hq := Nat.div_add_mod q.val binade
    rw [he] at hr
    by_cases hs : q.val < binade
    · rw [steps, if_pos (Nat.lt_trans hv hs), steps, if_pos hs]
      exact hv
    · have hs' : ¬ r.val < binade := by
        intro small
        rw [Nat.div_eq_of_lt small] at he
        exact hs ((Nat.div_eq_zero_iff_lt hB).mp he.symm)
      rw [steps, if_neg hs', steps, if_neg hs, he, Nat.shiftLeft_eq, Nat.shiftLeft_eq]
      exact Nat.mul_lt_mul_of_pos_right (by omega) (Nat.two_pow_pos _)

theorem steps_lt_steps_iff {r q : Rank} : r.steps < q.steps ↔ r.val < q.val := by
  refine ⟨fun h => ?_, steps_lt_steps⟩
  refine Nat.lt_of_not_le fun le => ?_
  rcases Nat.lt_or_eq_of_le le with lt | eq
  · exact Nat.lt_asymm h (steps_lt_steps lt)
  · rw [Fin.ext eq] at h
    exact Nat.lt_irrefl _ h

theorem steps_pos_iff {r : Rank} : 0 < r.steps ↔ 0 < r.val := steps_lt_steps_iff (r := 0)

/-- Ranks are told apart by their magnitudes. -/
theorem steps_inj {r q : Rank} : r.steps = q.steps ↔ r = q := by
  refine ⟨fun h => Fin.ext ?_, congrArg steps⟩
  have notLess : ¬ r.val < q.val := fun lt => Nat.ne_of_lt (steps_lt_steps lt) h
  have notGreater : ¬ q.val < r.val := fun lt => Nat.ne_of_lt (steps_lt_steps lt) h.symm
  exact Nat.le_antisymm (Nat.le_of_not_lt notGreater) (Nat.le_of_not_lt notLess)

end Rank

namespace Number

/-- The number as a multiple of the smallest positive one, `2 ^ (-1074)`. -/
def signedSteps : Number → Int
  | .nan => 0
  | .signed negative rank => if negative then -(rank.steps : Int) else rank.steps

/-- A greater height is a greater number. -/
theorem signedSteps_lt_iff (s t : Bool) (r q : Rank) :
    signedSteps (.signed s r) < signedSteps (.signed t q) ↔ height s r < height t q := by
  have order := Rank.steps_lt_steps_iff (r := r) (q := q)
  have order' := Rank.steps_lt_steps_iff (r := q) (q := r)
  have posLeft := Rank.steps_pos_iff (r := r)
  have posRight := Rank.steps_pos_iff (r := q)
  cases s <;> cases t <;> simp only [signedSteps, height, reduceIte, Bool.false_eq_true] <;> omega

/-- Two numbers are compared by what they are multiples of. -/
theorem compare?_signed (s t : Bool) (r q : Rank) :
    compare? (.signed s r) (.signed t q) =
      some (compare (signedSteps (.signed s r)) (signedSteps (.signed t q))) := by
  have less := signedSteps_lt_iff s t r q
  have greater := signedSteps_lt_iff t s q r
  refine congrArg some ?_
  rcases Int.lt_trichotomy (height s r) (height t q) with h | h | h
  · rw [Std.compare_eq_lt.mpr h, Std.compare_eq_lt.mpr (less.mpr h)]
  · rw [Std.compare_eq_iff_eq.mpr h, eq_comm, Std.compare_eq_iff_eq]
    omega
  · rw [Std.compare_eq_gt.mpr h, Std.compare_eq_gt.mpr (greater.mpr h)]

/-- Comparing the other way round reverses the order, where there is one. -/
theorem compare?_swap (a b : Number) : compare? b a = (compare? a b).map Ordering.swap := by
  cases a with
  | nan => cases b <;> rfl
  | signed s r =>
    cases b with
    | nan => rfl
    | signed t q => exact congrArg some Std.OrientedOrd.eq_swap

/-- Two numbers that are not the same have a difference of the sign of their order. -/
theorem differenceSign?_of_ne {a b : Number} (h : a ≠ b) : differenceSign? a b = compare? a b :=
  if_neg fun same => h (of_decide_eq_true (Bool.and_eq_true_iff.mp same).1)

/-- The sign of a difference is the order, and of two equal infinities neither is less. -/
theorem differenceSign?_eq_lt_iff {a b : Number} (ha : a ≠ .nan) (hb : b ≠ .nan) :
    differenceSign? a b = some .lt ↔ a.signedSteps < b.signedSteps := by
  obtain _ | ⟨s, r⟩ := a
  · exact absurd rfl ha
  obtain _ | ⟨t, q⟩ := b
  · exact absurd rfl hb
  by_cases same : Number.signed s r = .signed t q
  · have tie : differenceSign? (.signed t q) (.signed t q) ≠ some .lt := by
      rw [differenceSign?, compare?_signed, Std.compare_self]
      split <;> nofun
    rw [same]
    exact iff_of_false tie (Int.lt_irrefl _)
  · rw [differenceSign?_of_ne same, compare?_signed, Option.some_inj, Std.compare_eq_lt]

/-- The difference the other way round has the opposite sign. -/
theorem differenceSign?_swap (a b : Number) :
    differenceSign? b a = (differenceSign? a b).map Ordering.swap := by
  by_cases same : a = b
  · subst same
    rw [differenceSign?]
    split
    · rfl
    · exact compare?_swap a a
  · rw [differenceSign?_of_ne same, differenceSign?_of_ne (Ne.symm same), compare?_swap]

/-- Finite numbers have a difference. -/
theorem exists_differenceSign? {a b : Number} (ha : a ≠ .nan) (hb : b ≠ .nan)
    (h : ∀ negative, a ≠ .infinity negative) : ∃ o, differenceSign? a b = some o := by
  obtain _ | ⟨s, r⟩ := a
  · exact absurd rfl ha
  obtain _ | ⟨t, q⟩ := b
  · exact absurd rfl hb
  have finite : isInfinite (.signed s r) = false :=
    Bool.eq_false_iff.mpr fun inf => h s (congrArg _ (beq_iff_eq.mp inf))
  rw [differenceSign?, finite, Bool.and_false]
  exact ⟨_, compare?_signed s t r q⟩

/-! ### Equal numbers -/

theorem natAbs_signedSteps (negative : Bool) (rank : Rank) :
    (signedSteps (.signed negative rank)).natAbs = rank.steps := by
  cases negative <;> simp [signedSteps]

/-- Numbers are told apart by what they are multiples of, except for the sign of zero. -/
theorem signedSteps_inj {s t : Bool} {r q : Rank} :
    signedSteps (.signed s r) = signedSteps (.signed t q) ↔ r = q ∧ (s = t ∨ r = 0) := by
  constructor
  · intro h
    obtain rfl : r = q := by
      rw [← Rank.steps_inj, ← natAbs_signedSteps s r, h, natAbs_signedSteps]
    refine ⟨rfl, Decidable.or_iff_not_imp_right.mpr fun nonzero => ?_⟩
    have pos : 0 < r.steps := Rank.steps_pos_iff.mpr (Fin.pos_iff_ne_zero.mpr nonzero)
    cases s <;> cases t <;> simp only [signedSteps, reduceIte, Bool.false_eq_true] at h ⊢ <;> omega
  · rintro ⟨rfl, rfl | rfl⟩
    · rfl
    · cases s <;> cases t <;> rfl

/-! ### Infinities -/

/-- The infinite numbers are those of the greatest magnitude. -/
theorem isInfinite_iff {a : Number} :
    a.isInfinite ↔ a.signedSteps.natAbs = Rank.infinite.steps := by
  cases a with
  | nan =>
    have pos : 0 < Rank.infinite.steps := Rank.steps_pos_iff.mpr (by decide)
    simp only [isInfinite, signedSteps, Int.natAbs_zero, Bool.false_eq_true, false_iff]
    exact Nat.ne_of_lt pos
  | signed s r => rw [natAbs_signedSteps, Rank.steps_inj, isInfinite, beq_iff_eq]

/-- An infinite number is told by its sign. -/
theorem eq_of_isInfinite {a b : Number} (ha : a.isInfinite) (h : a.signedSteps = b.signedSteps) :
    a = b := by
  have hb : b.isInfinite := isInfinite_iff.mpr (h ▸ isInfinite_iff.mp ha)
  obtain _ | ⟨s, r⟩ := a
  · cases ha
  obtain _ | ⟨t, q⟩ := b
  · cases hb
  obtain rfl : r = .infinite := beq_iff_eq.mp ha
  obtain ⟨rfl, rfl | zero⟩ := signedSteps_inj.mp h
  · rfl
  · exact absurd zero (by decide)

/-- Of the numbers only equal infinities have no difference. -/
theorem differenceSign?_eq_none_iff {a b : Number} (ha : a ≠ .nan) (hb : b ≠ .nan) :
    differenceSign? a b = none ↔ a.signedSteps = b.signedSteps ∧ a.isInfinite := by
  constructor
  · intro h
    obtain _ | ⟨s, r⟩ := a
    · exact absurd rfl ha
    obtain _ | ⟨t, q⟩ := b
    · exact absurd rfl hb
    rw [differenceSign?, compare?_signed] at h
    split at h
    next same =>
      rw [Bool.and_eq_true, decide_eq_true_iff] at same
      exact ⟨congrArg _ same.1, same.2⟩
    next => cases h
  · rintro ⟨h, infinite⟩
    obtain rfl := eq_of_isInfinite infinite h
    simp [differenceSign?, infinite]

end Number

end PhotoQuery
