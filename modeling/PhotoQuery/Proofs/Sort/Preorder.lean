import PhotoQuery.Proofs.Sort.Key

/-!
# Sort — the preorder of finite keys

A finite key is absent, or it is a text, a truth value, a valid date or a finite number
(`FiniteKey`).  Two such keys of any kinds have an order in either direction (`FiniteKey.order`),
and in each it is a total preorder: an instance of `Std.TransCmp`, because it is the one that
decides `KeyLess`.

`FiniteKey.preorder_laws` says so of the order that sorting asks for.  Keys that tie in it are equal
values of one kind, or both absent: the two zeros are the only values that differ and tie
(`Value.Equals`).  Absent keys come last in both directions, and all others are reversed from one
direction to the other.
-/

namespace PhotoQuery

/-! ### Equal values -/

namespace Value

/-- Two values are of one kind and equal.  Zero is equal to itself with either sign. -/
inductive Equals : Value → Value → Prop where
  | refl (v : Value) : Equals v v
  | zero (negative negative' : Bool) :
    Equals (.number (.signed negative 0)) (.number (.signed negative' 0))

theorem Equals.ordinal_eq {a b : Value} (h : a.Equals b) : a.ordinal = b.ordinal := by
  cases h with
  | refl => rfl
  | zero s t => exact ordinal_number_inj.mpr (Number.signedSteps_inj.mpr ⟨rfl, .inr rfl⟩)

/-- Only equal values have the same place. -/
theorem equals_of_ordinal_eq {a b : Value} :
    a.IsProper → b.IsProper → a.ordinal = b.ordinal → a.Equals b := by
  induction a, b using pairCases with
  | apart a b kinds =>
    intro _ _ same
    exact absurd (rank_eq_of_ordinal_eq same) kinds
  | dates s t =>
    intro hs ht same
    obtain a | _ := s
    · obtain b | _ := t
      · obtain rfl : a = b := by simpa [ordinal] using same
        exact .refl _
      · exact absurd rfl ht.1
    · exact absurd rfl hs.1
  | numbers x y =>
    intro hx hy same
    obtain _ | ⟨s, r⟩ := x
    · exact absurd rfl hx.2
    obtain _ | ⟨t, q⟩ := y
    · exact absurd rfl hy.2
    -- the signs agree, or both are zeros
    obtain ⟨rfl, rfl | rfl⟩ := Number.signedSteps_inj.mp (ordinal_number_inj.mp same)
    · exact .refl _
    · exact .zero s t
  | truths p q =>
    intro _ _ same
    obtain rfl : p = q := by cases p <;> cases q <;> simp [ordinal] at same ⊢
    exact .refl _
  | texts s t =>
    intro _ _ same
    obtain rfl : s = t := ordinal_string_inj.mp same
    exact .refl _

end Value

/-- Keys tie if both are absent, or their values are equal. -/
theorem keyTie_iff_equals {a b : Option Value} (ha : ∀ v ∈ a, v.IsProper)
    (hb : ∀ v ∈ b, v.IsProper) : KeyTie a b ↔ Option.Rel Value.Equals a b := by
  rw [keyTie_iff_rel]
  constructor
  · rintro (same | _)
    · exact .some (Value.equals_of_ordinal_eq (ha _ rfl) (hb _ rfl) same)
    · exact .none
  · rintro (equal | _)
    · exact .some equal.ordinal_eq
    · exact .none

/-! ### Finite keys -/

/-- A key that is absent or finite. -/
structure FiniteKey where
  key : Option Value
  finite : ∀ v ∈ key, v.IsFinite

namespace FiniteKey

variable {direction : Direction} {a b : FiniteKey}

theorem proper (a : FiniteKey) : ∀ v ∈ a.key, v.IsProper := fun v hv => (a.finite v hv).1

/-- Two finite keys always have an order. -/
theorem isSome_orderKeys? (direction : Direction) (a b : FiniteKey) :
    (orderKeys? direction a.key b.key).isSome :=
  Option.isSome_iff_exists.mpr (exists_orderKeys? direction a.finite b.finite)

/-- The order of two finite keys in the direction. -/
def order (direction : Direction) (a b : FiniteKey) : Ordering :=
  (orderKeys? direction a.key b.key).get (isSome_orderKeys? direction a b)

theorem orderKeys?_eq (direction : Direction) (a b : FiniteKey) :
    orderKeys? direction a.key b.key = some (order direction a b) := (Option.some_get _).symm

/-- The order of two finite keys the other way round is reversed. -/
theorem order_swap (direction : Direction) (a b : FiniteKey) :
    order direction b a = (order direction a b).swap := by
  have swapped := orderKeys?_swap direction a.key b.key
  rwa [orderKeys?_eq, orderKeys?_eq, Option.map_some, Option.some_inj] at swapped

/-- A finite key is after another exactly if the other comes before it. -/
theorem order_eq_gt_iff : order direction a b = .gt ↔ KeyLess direction b.key a.key := by
  rw [← orderKeys?_eq_gt_iff direction a.proper b.proper, orderKeys?_eq, Option.some_inj]

theorem order_eq_lt_iff : order direction a b = .lt ↔ KeyLess direction a.key b.key := by
  rw [← orderKeys?_eq_lt_iff direction a.proper b.proper, orderKeys?_eq, Option.some_inj]

/-- The order of finite keys is a total preorder: were the first key of a chain after the last, one
of its links would be the wrong way round. -/
instance : Std.TransCmp (order direction) where
  eq_swap := order_swap direction _ _
  isLE_trans {a b c} hab hbc := by
    rw [Ordering.isLE_iff_ne_gt, order_eq_gt_iff] at *
    exact fun hca => ((keyLess_weakOrder direction).split b.key hca).elim hbc hab

/-- Finite keys tie if both are absent or their values are equal. -/
theorem order_eq_eq_iff : order direction a b = .eq ↔ Option.Rel Value.Equals a.key b.key := by
  rw [← keyTie_iff_equals a.proper b.proper, @keyTie_iff direction, ← order_eq_gt_iff,
    ← order_eq_gt_iff, order_swap direction a b]
  cases order direction a b <;> decide

/-- **Sorting compares finite keys by a total preorder.**  In either direction, any two of them
compare in one of three ways, and the opposite way if they are exchanged: one is less than another
exactly if it comes before it, and they tie exactly if both are absent or they are equal values of
one kind.  If of three keys neither the first is after the second nor the second after the third,
the first is not after the third.  An absent key is after every other in both directions, and two
keys that are present compare in descending order the opposite way to ascending. -/
theorem preorder_laws (direction : Direction) :
    (∀ a b : FiniteKey, ∃ o, orderKeys? direction a.key b.key = some o ∧
      orderKeys? direction b.key a.key = some o.swap ∧
      (o = .lt ↔ KeyLess direction a.key b.key) ∧ (o = .eq ↔ Option.Rel Value.Equals a.key b.key)) ∧
    (∀ a b c : FiniteKey, orderKeys? direction a.key b.key ≠ some .gt →
      orderKeys? direction b.key c.key ≠ some .gt → orderKeys? direction a.key c.key ≠ some .gt) ∧
    (∀ v : Value, orderKeys? direction none (some v) = some .gt ∧
      orderKeys? direction (some v) none = some .lt) ∧
    ∀ u v : Value, orderKeys? .descending (some u) (some v) =
      (orderKeys? .ascending (some u) (some v)).map Ordering.swap := by
  refine ⟨fun a b => ?_, fun a b c hab hbc => ?_, fun v => ⟨rfl, rfl⟩, fun u v => ?_⟩
  · exact ⟨order direction a b, orderKeys?_eq direction a b,
      order_swap direction a b ▸ orderKeys?_eq direction b a, order_eq_lt_iff, order_eq_eq_iff⟩
  · simp only [orderKeys?_eq, ne_eq, Option.some_inj, ← Ordering.isLE_iff_ne_gt] at *
    exact Std.TransCmp.isLE_trans hab hbc
  · rw [orderKeys?, orderKeys?, Option.map_map]
    rfl

/-- In descending order a text is before zero, the zeros tie, and so the text is before either. -/
theorem preorder_laws_zeros :
    ∃ text zero minusZero : FiniteKey,
      text.key = some (.string (.ofString "a")) ∧ zero.key = some (.number (.signed false 0)) ∧
      minusZero.key = some (.number (.signed true 0)) ∧
      orderKeys? .descending text.key zero.key ≠ some .gt ∧
      orderKeys? .descending zero.key minusZero.key = some .eq ∧
      orderKeys? .descending text.key minusZero.key ≠ some .gt := by
  let text : FiniteKey := ⟨some (.string (.ofString "a")), by simp [Value.IsFinite, Value.IsProper]⟩
  let zero (negative : Bool) : FiniteKey :=
    ⟨some (.number (.signed negative 0)), by
      simp [Value.IsFinite, Value.IsProper, Number.infinity, Rank.infinite]⟩
  obtain ⟨compared, chain, -, -⟩ := preorder_laws .descending
  have before : orderKeys? .descending text.key (zero false).key ≠ some .gt := by decide
  obtain ⟨_, tie, -, -, equal⟩ := compared (zero false) (zero true)
  obtain rfl := equal.mpr (.some (.zero false true))
  exact ⟨text, zero false, zero true, rfl, rfl, rfl, before, tie,
    chain _ _ _ before (by simp [tie])⟩

end FiniteKey

end PhotoQuery
