import PhotoQuery.Number.Rounding

/-!
# Number — safe integers

The natural numbers below `2 ^ 53` are numbers exactly, and rounding takes every larger one to at
least `2 ^ 53`.  So `Number.safeInteger?` gives back what `Number.ofNat` was given below that bound,
and refuses everything at or above it: no rounding hides a literal that is too large.

A magnitude of `m` units of `2 ^ s` steps, where `m` has 53 bits, has the rank `s * binade + m`
(`Rank.steps_eq`).  A natural number of at most 53 bits is such a magnitude, with nothing to round.
-/

namespace PhotoQuery

/-- The largest natural number that is told apart from its neighbours, `2 ^ 53 - 1`. -/
def maxSafe : Nat := 0x1FFFFFFFFFFFFF

/-! ### Shifts

The exponents are variables here: on the literal 1074, unification would count in unary. -/

/-- Shifting adds to the number of bits. -/
theorem log2_shiftLeft {n : Nat} (h : n ≠ 0) (e : Nat) : (n <<< e).log2 = n.log2 + e := by
  have pos : 0 < n * 2 ^ e := Nat.mul_pos (Nat.pos_of_ne_zero h) (Nat.two_pow_pos e)
  rw [Nat.shiftLeft_eq, Nat.log2_eq_iff (Nat.ne_of_gt pos)]
  constructor
  · rw [Nat.pow_add]
    exact Nat.mul_le_mul_right _ (Nat.log2_self_le h)
  · rw [Nat.add_right_comm, Nat.pow_add _ _ e]
    exact Nat.mul_lt_mul_of_pos_right Nat.lt_log2_self (Nat.two_pow_pos e)

/-- Shifting right is dividing, so it is adjoint to shifting left. -/
theorem le_shiftRight {n m e : Nat} : n ≤ m >>> e ↔ n <<< e ≤ m := by
  rw [Nat.shiftRight_eq_div_pow, Nat.le_div_iff_mul_le (Nat.two_pow_pos e), Nat.shiftLeft_eq]

theorem shiftLeft_mono {a b s t : Nat} (h : a ≤ b) (ht : s ≤ t) : a <<< s ≤ b <<< t := by
  rw [Nat.shiftLeft_eq, Nat.shiftLeft_eq]
  exact Nat.mul_le_mul h (Nat.pow_le_pow_right (by decide) ht)

/-! ### Rounding -/

theorem le_nearestEven (num den : Nat) : num / den ≤ nearestEven num den := by
  simp only [nearestEven]
  split <;> omega

/-- A multiple of the denominator is not rounded. -/
theorem nearestEven_mul (m : Nat) {den : Nat} (h : 0 < den) : nearestEven (m * den) den = m := by
  simp [nearestEven, Nat.mul_div_cancel _ h, Nat.ne_of_lt h]

/-- The leading bits of a natural number of at most 53 bits are all its bits. -/
theorem nearestEven_shiftLeft {n e : Nat} (h : n.log2 ≤ 52) (he : 52 ≤ e) :
    nearestEven (n <<< e) (1 <<< (n.log2 + e - 52)) = n <<< (52 - n.log2) := by
  have split : n <<< e = n <<< (52 - n.log2) * 1 <<< (n.log2 + e - 52) := by
    rw [Nat.shiftLeft_eq, Nat.shiftLeft_eq, Nat.one_shiftLeft, Nat.mul_assoc, ← Nat.pow_add]
    congr 2
    omega
  rw [split]
  exact nearestEven_mul _ (by rw [Nat.one_shiftLeft]; exact Nat.two_pow_pos _)

namespace Rank

/-- The steps of a magnitude of 53 bits under its exponent. -/
theorem steps_eq {r : Rank} {s m : Nat} (hm : binade ≤ m) (hm' : m < 2 * binade)
    (hr : r.val = s * binade + m) : r.steps = m <<< s := by
  have hB : 0 < binade := by decide
  have split : r.val = (m - binade) + binade * (s + 1) := by
    rw [hr, Nat.mul_add, Nat.mul_comm]; omega
  have hdiv : r.val / binade = s + 1 := by
    rw [split, Nat.add_mul_div_left _ _ hB, Nat.div_eq_of_lt (by omega), Nat.zero_add]
  have hmod : r.val % binade = m - binade := by
    rw [split, Nat.add_mul_mod_self_left, Nat.mod_eq_of_lt (by omega)]
  have hge : ¬ r.val < binade := by omega
  rw [steps, if_neg hge, hdiv, hmod, Nat.sub_add_cancel hm, Nat.add_sub_cancel]

/-- A magnitude of at least 53 bits under the exponent `s` has at least `2 ^ 52` units of it. -/
theorem le_steps {r : Rank} {s : Nat} (h : (s + 1) * binade ≤ r.val) : binade <<< s ≤ r.steps := by
  have hB : 0 < binade := by decide
  have hdiv : s + 1 ≤ r.val / binade := (Nat.le_div_iff_mul_le hB).mpr h
  have hge : ¬ r.val < binade := by
    have : binade ≤ (s + 1) * binade := Nat.le_mul_of_pos_left _ (Nat.succ_pos s)
    omega
  rw [steps, if_neg hge]
  exact shiftLeft_mono (Nat.le_add_left _ _) (by omega)

/-- A magnitude of 53 bits under an exponent of at most 1074 is finite. -/
theorem finite_val {s m : Nat} (hs : s ≤ 1074) (hm : m < 2 * binade) :
    s * binade + m ≤ 0x7FF0000000000000 := by
  have hB : 1076 * binade ≤ 0x7FF0000000000000 := by decide
  have := Nat.mul_le_mul_right binade hs
  omega

/-- The rank of a natural number, by its binary logarithm. -/
theorem nearest_val {n : Nat} (h : n ≠ 0) :
    (Rank.nearest n 1).val = min 0x7FF0000000000000
      ((n.log2 + 1074 - 52) * binade + nearestEven (n <<< 1074) (1 <<< (n.log2 + 1074 - 52))) := by
  simp only [Rank.nearest, Nat.div_one, log2_shiftLeft h]

/-- Below `2 ^ 53`, a natural number is a number exactly. -/
theorem nearest_steps {n : Nat} (h : n ≤ maxSafe) : (Rank.nearest n 1).steps = n <<< 1074 := by
  by_cases hn : n = 0
  · subst hn
    decide +kernel
  have hk : n.log2 ≤ 52 := Nat.le_of_lt_succ <| (Nat.log2_lt hn).mpr (Nat.lt_succ_of_le h)
  -- shifted to 53 bits, `n` lies in the binade of its exponent
  have log : (n <<< (52 - n.log2)).log2 = 52 := by rw [log2_shiftLeft hn]; omega
  have units : n <<< (52 - n.log2) ≠ 0 := fun h0 => by rw [h0] at log; exact absurd log (by decide)
  have hm : binade ≤ n <<< (52 - n.log2) := (Nat.le_log2 units).mp (Nat.le_of_eq log.symm)
  have hm' : n <<< (52 - n.log2) < 2 * binade :=
    (Nat.log2_lt units).mp (Nat.lt_succ_of_le (Nat.le_of_eq log))
  have exponents : 52 - n.log2 + (n.log2 + 1074 - 52) = 1074 := by omega
  have hval : (Rank.nearest n 1).val = (n.log2 + 1074 - 52) * binade + n <<< (52 - n.log2) := by
    rw [nearest_val hn, nearestEven_shiftLeft hk (by decide),
      Nat.min_eq_right (finite_val (by omega) hm')]
  rw [steps_eq hm hm' hval, ← Nat.shiftLeft_add, exponents]

/-- From `2 ^ 53` on, a natural number is not rounded below that. -/
theorem le_nearest {n : Nat} (h : maxSafe < n) : 1076 * binade ≤ (Rank.nearest n 1).val := by
  have hn : n ≠ 0 := Nat.ne_of_gt (Nat.lt_of_le_of_lt (Nat.zero_le _) h)
  have hk : 53 ≤ n.log2 := (Nat.le_log2 hn).mpr h
  have low : binade ≤ nearestEven (n <<< 1074) (1 <<< (n.log2 + 1074 - 52)) := by
    refine Nat.le_trans ?_ (le_nearestEven _ _)
    have num := log2_shiftLeft hn 1074
    generalize n <<< 1074 = steps at num
    have hs : steps ≠ 0 := fun h0 => by rw [h0] at num; simp at num
    rw [Nat.one_shiftLeft, Nat.le_div_iff_mul_le (Nat.two_pow_pos _),
      show binade = 2 ^ 52 from rfl, ← Nat.pow_add, ← Nat.le_log2 hs]
    omega
  have high : 1075 * binade ≤ (n.log2 + 1074 - 52) * binade := Nat.mul_le_mul_right _ (by omega)
  rw [nearest_val hn, Nat.le_min]
  unfold binade at *
  omega

end Rank

namespace Number

/-- **A literal's value is exact, or refused**: the number nearest to a natural number is safe if
and only if the natural number is, and then they are the same. -/
theorem safeInteger?_ofNat (n : Nat) :
    (ofNat n).safeInteger? = if n ≤ maxSafe then some (n : Int) else none := by
  simp only [ofNat, safeInteger?]
  by_cases h : n ≤ maxSafe
  · have lt : n < 0x20000000000000 := Nat.lt_succ_of_le h
    simp [Rank.nearest_steps h, lt, h]
  · have steps := Rank.le_steps (Rank.le_nearest (Nat.lt_of_not_le h))
    have whole : 0x20000000000000 ≤ (Rank.nearest n 1).steps >>> 1074 := by
      rw [le_shiftRight]
      refine Nat.le_trans (Nat.le_of_eq ?_) steps
      decide +kernel
    rw [if_neg fun hw => Nat.not_lt_of_le whole hw.2, if_neg h]

/-- An integer of safe magnitude is a number exactly. -/
theorem safeInteger?_ofInt {i : Int} (h : i.natAbs ≤ maxSafe) :
    (ofInt i).safeInteger? = some i := by
  have lt : i.natAbs < 0x20000000000000 := Nat.lt_succ_of_le h
  have sign : (if i < 0 then -(i.natAbs : Int) else i.natAbs) = i := by omega
  simp only [ofInt, safeInteger?, Rank.nearest_steps h, Nat.shiftLeft_shiftRight, lt,
    decide_eq_true_eq, sign, and_self, if_true]

/-- The number nearest to a natural number is at most zero only for zero. -/
theorem isNonPositive_ofNat (n : Nat) : (ofNat n).isNonPositive = decide (n = 0) := by
  by_cases hn : n = 0
  · subst hn
    decide +kernel
  have pos : 0 < (Rank.nearest n 1).val := by
    have : 0 < (n.log2 + 1074 - 52) * Rank.binade := Nat.mul_pos (by omega) (by decide)
    rw [Rank.nearest_val hn]
    omega
  have gt : compare ((Rank.nearest n 1).val : Int) 0 = .gt := Int.compare_eq_gt.mpr (by omega)
  have some_gt : compare? (ofNat n) zero = some .gt := congrArg some gt
  rw [isNonPositive, some_gt, decide_eq_false hn]
  rfl

end Number

end PhotoQuery
