import Mathlib.Data.List.Lex
import Mathlib.Data.Prod.Lex
import PhotoQuery.Proofs.Number.Order
import PhotoQuery.Proofs.Sort.Stable
import PhotoQuery.Proofs.Text.Order

/-!
# Sort — the order of keys

`Value.ordinal` gives every value a place in one linear order: dates first, then numbers, truth
values and strings, and within a kind the natural order.  `KeyLess` puts keys in a direction, with
an absent key after every other in both; `KeyTie` is what it leaves undecided.

Sorting puts one key after another exactly if this order does (`orderKeys?_eq_gt_iff`), as long as
neither is an invalid date or a number that is none.  Two equal infinities have no order, and no
other such keys lack one (`orderKeys?_eq_none_iff`); here they tie.  On finite keys there is always
an order (`orderKeys?_cases`).
-/

namespace PhotoQuery

/-! ### Places of values -/

namespace Value

/-- The place of a value in the order of all values; the number in front puts the kinds in order. -/
def ordinal : Value → ℕ ×ₗ ℤ ×ₗ List ℕ
  | .date (.instant ms) => toLex (0, toLex (ms, []))
  | .date .invalid => toLex (0, toLex (0, []))
  | .number x => toLex (1, toLex (x.signedSteps, []))
  | .boolean b => toLex (2, toLex (b.toNat, []))
  | .string s => toLex (3, toLex (0, s.map UInt16.toNat))

/-- The value has a place among its kind: it is not an invalid date or a number that is none. -/
def IsProper (v : Value) : Prop := v ≠ .date .invalid ∧ v ≠ .number .nan

/-- The value is proper, and no infinite number. -/
def IsFinite (v : Value) : Prop := v.IsProper ∧ ∀ negative, v ≠ .number (.infinity negative)

theorem ordinal_date_lt {a b : Int} :
    (date (.instant a)).ordinal < (date (.instant b)).ordinal ↔ a < b := by
  simp [ordinal, Prod.Lex.toLex_lt_toLex]

theorem ordinal_number_lt {x y : Number} :
    (number x).ordinal < (number y).ordinal ↔ x.signedSteps < y.signedSteps := by
  simp [ordinal, Prod.Lex.toLex_lt_toLex]

theorem ordinal_boolean_lt {p q : Bool} : (boolean p).ordinal < (boolean q).ordinal ↔ p < q := by
  cases p <;> cases q <;> simp [ordinal, Prod.Lex.toLex_lt_toLex]

theorem ordinal_string_lt {s t : Text} : (string s).ordinal < (string t).ordinal ↔ s < t := by
  simp [ordinal, Prod.Lex.toLex_lt_toLex, Text.lt_iff_map_toNat]

/-- The place of a value starts with the rank of its kind. -/
theorem fst_ordinal (v : Value) : (ofLex v.ordinal).1 = v.rank := by
  rcases v with _ | _ | _ | _ | _ <;> rfl

/-- Values of one place are of one kind. -/
theorem rank_eq_of_ordinal_eq {a b : Value} (h : a.ordinal = b.ordinal) : a.rank = b.rank := by
  rw [← fst_ordinal, h, fst_ordinal]

/-- Values of different kinds have the order of their kinds. -/
theorem ordinal_lt_iff_rank_lt {a b : Value} (h : a.rank ≠ b.rank) :
    a.ordinal < b.ordinal ↔ a.rank < b.rank := by
  rw [Prod.Lex.lt_iff, fst_ordinal, fst_ordinal]
  exact ⟨fun h' => h'.resolve_right fun same => h same.1, .inl⟩

/-- Values of different kinds are compared by their kinds. -/
theorem order?_of_rank_ne {a b : Value} (h : a.rank ≠ b.rank) :
    a.order? b = some (compare a.rank b.rank) := by
  cases a <;> cases b <;> first | rfl | exact absurd rfl h

/-- Two values are of different kinds, or of the same one. -/
@[elab_as_elim]
theorem pairCases {motive : Value → Value → Prop}
    (apart : ∀ a b, a.rank ≠ b.rank → motive a b)
    (dates : ∀ s t, motive (date s) (date t)) (numbers : ∀ x y, motive (number x) (number y))
    (truths : ∀ p q, motive (boolean p) (boolean q)) (texts : ∀ s t, motive (string s) (string t))
    (a b : Value) : motive a b := by
  cases a <;> cases b <;>
    first
    | exact dates _ _
    | exact numbers _ _
    | exact truths _ _
    | exact texts _ _
    | exact apart _ _ (by simp [rank])

/-- The order of values is the order of their places. -/
theorem order?_eq_lt_iff {a b : Value} :
    a.IsProper → b.IsProper → (a.order? b = some .lt ↔ a.ordinal < b.ordinal) := by
  induction a, b using pairCases with
  | apart a b kinds =>
    intro _ _
    rw [order?_of_rank_ne kinds, ordinal_lt_iff_rank_lt kinds, Option.some_inj, Std.compare_eq_lt]
  | dates s t =>
    intro hs ht
    obtain a | _ := s
    · obtain b | _ := t
      · rw [ordinal_date_lt]
        exact Option.some_inj.trans Std.compare_eq_lt
      · exact absurd rfl ht.1
    · exact absurd rfl hs.1
  | numbers x y =>
    intro hx hy
    rw [ordinal_number_lt]
    exact Number.differenceSign?_eq_lt_iff (fun h => hx.2 (congrArg _ h))
      fun h => hy.2 (congrArg _ h)
  | truths p q =>
    intro _ _
    rw [ordinal_boolean_lt]
    cases p <;> cases q <;> decide
  | texts s t =>
    intro _ _
    rw [ordinal_string_lt]
    exact Option.some_inj.trans Text.compare_eq_lt

/-- The order of two values the other way round is reversed. -/
theorem order?_swap (a b : Value) : b.order? a = (a.order? b).map Ordering.swap := by
  induction a, b using pairCases with
  | apart a b kinds =>
    rw [order?_of_rank_ne kinds, order?_of_rank_ne kinds.symm, Std.OrientedOrd.eq_swap]
    rfl
  | dates s t => exact Timestamp.compare?_swap s t
  | numbers x y => exact Number.differenceSign?_swap x y
  | truths p q => exact congrArg some Std.OrientedOrd.eq_swap
  | texts s t => exact congrArg some Std.OrientedOrd.eq_swap

/-- A proper value is put after another exactly if its place is. -/
theorem order?_eq_gt_iff {a b : Value} (ha : a.IsProper) (hb : b.IsProper) :
    a.order? b = some .gt ↔ b.ordinal < a.ordinal := by
  rw [← order?_eq_lt_iff hb ha, order?_swap a b]
  cases a.order? b with
  | none => simp
  | some o => simp

/-- Finite values have an order; of the proper ones only equal infinities have none. -/
theorem exists_order? {a b : Value} : a.IsFinite → b.IsFinite → ∃ o, a.order? b = some o := by
  induction a, b using pairCases with
  | apart a b kinds => exact fun _ _ => ⟨_, order?_of_rank_ne kinds⟩
  | dates s t =>
    intro hs ht
    obtain a | _ := s
    · obtain b | _ := t
      · exact ⟨_, rfl⟩
      · exact absurd rfl ht.1.1
    · exact absurd rfl hs.1.1
  | numbers x y =>
    intro hx hy
    exact Number.exists_differenceSign? (fun h => hx.1.2 (congrArg _ h))
      (fun h => hy.1.2 (congrArg _ h)) fun s h => hx.2 s (congrArg _ h)
  | truths p q => exact fun _ _ => ⟨_, rfl⟩
  | texts s t => exact fun _ _ => ⟨_, rfl⟩

/-- An infinite number. -/
def isInfinite : Value → Bool
  | .number x => x.isInfinite
  | _ => false

theorem ordinal_number_inj {x y : Number} :
    (number x).ordinal = (number y).ordinal ↔ x.signedSteps = y.signedSteps := by
  simp [ordinal]

theorem ordinal_string_inj {s t : Text} : (string s).ordinal = (string t).ordinal ↔ s = t := by
  simp [ordinal, List.map_inj_right fun _ _ => UInt16.toNat_inj.mp]

/-- Values of one place are both infinite or both not. -/
theorem isInfinite_eq_of_ordinal_eq {a b : Value} :
    a.ordinal = b.ordinal → a.isInfinite = b.isInfinite := by
  induction a, b using pairCases with
  | apart a b kinds => exact fun h => absurd (rank_eq_of_ordinal_eq h) kinds
  | numbers x y =>
    intro h
    rw [isInfinite, isInfinite, Bool.eq_iff_iff, Number.isInfinite_iff, Number.isInfinite_iff,
      ordinal_number_inj.mp h]
  | dates | truths | texts => exact fun _ => rfl

/-- Of the proper values only equal infinities have no order. -/
theorem order?_eq_none_iff {a b : Value} :
    a.IsProper → b.IsProper → (a.order? b = none ↔ a.ordinal = b.ordinal ∧ a.isInfinite) := by
  induction a, b using pairCases with
  | apart a b kinds =>
    have apart : a.ordinal ≠ b.ordinal := mt rank_eq_of_ordinal_eq kinds
    simp [order?_of_rank_ne kinds, apart]
  | numbers x y =>
    intro hx hy
    rw [ordinal_number_inj]
    exact Number.differenceSign?_eq_none_iff (fun h => hx.2 (congrArg _ h))
      fun h => hy.2 (congrArg _ h)
  | dates s t =>
    intro hs ht
    obtain ⟨o, ho⟩ := exists_order? (a := .date s) (b := .date t) ⟨hs, nofun⟩ ⟨ht, nofun⟩
    simp [ho, isInfinite]
  | truths p q => simp [order?, isInfinite]
  | texts s t => simp [order?, isInfinite]

end Value

/-! ### Keys in a direction -/

/-- One key comes before another in the direction.  An absent key comes last in both. -/
inductive KeyLess : Direction → Option Value → Option Value → Prop where
  | ascending {a b : Value} (h : a.ordinal < b.ordinal) : KeyLess .ascending (some a) (some b)
  | descending {a b : Value} (h : b.ordinal < a.ordinal) : KeyLess .descending (some a) (some b)
  | absent {direction : Direction} (a : Value) : KeyLess direction (some a) none

/-- Two keys are equal in the order: both are absent, or both have the same place. -/
def KeyTie (a b : Option Value) : Prop := a.map Value.ordinal = b.map Value.ordinal

namespace KeyLess

variable {direction : Direction} {a b : Value} {key : Option Value}

@[simp] theorem ascending_iff :
    KeyLess .ascending (some a) (some b) ↔ a.ordinal < b.ordinal :=
  ⟨fun | .ascending h => h, .ascending⟩

@[simp] theorem descending_iff :
    KeyLess .descending (some a) (some b) ↔ b.ordinal < a.ordinal :=
  ⟨fun | .descending h => h, .descending⟩

@[simp] theorem some_none : KeyLess direction (some a) none := .absent a

@[simp] theorem not_none : ¬ KeyLess direction none key := nofun

end KeyLess

/-- Keys are in a weak order, in either direction. -/
theorem keyLess_weakOrder (direction : Direction) : WeakOrder (KeyLess direction) where
  asymm := by
    rintro _ _ (h | h | _) <;> rintro (h' | h' | _)
    · exact lt_asymm h h'
    · exact lt_asymm h h'
  split := by
    rintro a c b (h | h | a) <;> cases b
    case ascending.some b => exact (WeakOrder.lt.split b.ordinal h).imp .ascending .ascending
    case descending.some b =>
      exact (WeakOrder.lt.split b.ordinal h).symm.imp .descending .descending
    case absent.some b => exact .inr (.absent b)
    all_goals exact .inl (.absent _)

variable {direction : Direction} {a b : Option Value}

/-- Keys tie if neither comes before the other, in whichever direction. -/
theorem keyTie_iff :
    KeyTie a b ↔ ¬ KeyLess direction a b ∧ ¬ KeyLess direction b a := by
  cases direction <;> cases a <;> cases b <;> simp [KeyTie, le_antisymm_iff, and_comm]

/-- Two keys tie if both are absent, or both are present with values of one place. -/
theorem keyTie_iff_rel : KeyTie a b ↔ Option.Rel (fun u v => u.ordinal = v.ordinal) a b := by
  constructor
  · intro tie
    cases a <;> cases b
    case none.none => exact .none
    case some.some => exact .some (Option.some.inj tie)
    all_goals cases tie
  · rintro (same | _)
    · exact congrArg some same
    · rfl

/-- Items ordered by their keys, and where those tie by something else. -/
theorem thenBy_keyLess_iff {α : Type} {key : α → Option Value} {s : α → α → Prop} {x y : α} :
    thenBy (fun x y => KeyLess direction (key x) (key y)) s x y ↔
      KeyLess direction (key x) (key y) ∨ KeyTie (key x) (key y) ∧ s x y := by
  by_cases less : KeyLess direction (key x) (key y)
  · simp [thenBy, less]
  · simp [thenBy, less, @keyTie_iff direction]

/-- Two keys the other way round have the opposite order. -/
theorem orderKeys?_swap (direction : Direction) (a b : Option Value) :
    orderKeys? direction b a = (orderKeys? direction a b).map Ordering.swap := by
  cases a with
  | none => cases b <;> rfl
  | some a =>
    cases b with
    | none => rfl
    | some b =>
      rw [orderKeys?, orderKeys?, Value.order?_swap a b, Option.map_map, Option.map_map]
      cases direction <;> rfl

/-- Sorting puts a key after another exactly if this order does. -/
theorem orderKeys?_eq_gt_iff (direction : Direction) (ha : ∀ v ∈ a, v.IsProper)
    (hb : ∀ v ∈ b, v.IsProper) : orderKeys? direction a b = some .gt ↔ KeyLess direction b a := by
  cases a with
  | none => cases b <;> simp [orderKeys?]
  | some a =>
    cases b with
    | none => simp [orderKeys?]
    | some b =>
      have lt := Value.order?_eq_lt_iff (ha a rfl) (hb b rfl)
      have gt := Value.order?_eq_gt_iff (ha a rfl) (hb b rfl)
      cases direction with
      | ascending => simp [orderKeys?, Direction.apply, gt]
      | descending => simp [orderKeys?, Direction.apply, lt]

/-- Sorting puts a key before another exactly if this order does. -/
theorem orderKeys?_eq_lt_iff (direction : Direction) (ha : ∀ v ∈ a, v.IsProper)
    (hb : ∀ v ∈ b, v.IsProper) : orderKeys? direction a b = some .lt ↔ KeyLess direction a b := by
  rw [← orderKeys?_eq_gt_iff direction hb ha, orderKeys?_swap direction a b]
  cases orderKeys? direction a b <;> simp

/-- A ranking sorts items by their keys, if these are proper. -/
theorem Ranking.ranks {α : Type} (ranking : Ranking) {photo : α → Image} {items : List α}
    (proper : ∀ x ∈ items, ∀ v ∈ ranking.key (photo x), v.IsProper) :
    Ranks (fun x y => ranking.order? (photo x) (photo y))
      (fun x y => KeyLess ranking.direction (ranking.key (photo x)) (ranking.key (photo y)))
      items :=
  fun x hx y hy => orderKeys?_eq_gt_iff ranking.direction (proper x hx) (proper y hy)

/-- A ranking puts items in a weak order, by their keys. -/
theorem Ranking.weakOrder {α : Type} (ranking : Ranking) (photo : α → Image) :
    WeakOrder fun x y =>
      KeyLess ranking.direction (ranking.key (photo x)) (ranking.key (photo y)) :=
  (keyLess_weakOrder ranking.direction).on fun x => ranking.key (photo x)

/-- The key is an infinite number. -/
def KeyInfinite (key : Option Value) : Prop := key.any Value.isInfinite

instance (key : Option Value) : Decidable (KeyInfinite key) := inferInstanceAs (Decidable (_ = _))

/-- Keys that tie are both infinite or both not. -/
theorem KeyTie.infinite_iff (tie : KeyTie a b) : KeyInfinite a ↔ KeyInfinite b := by
  obtain same | _ := keyTie_iff_rel.mp tie
  · rw [KeyInfinite, KeyInfinite, Option.any_some, Option.any_some,
      Value.isInfinite_eq_of_ordinal_eq same]
  · rfl

/-- Of the proper keys only equal infinities have no order. -/
theorem orderKeys?_eq_none_iff (direction : Direction) (ha : ∀ v ∈ a, v.IsProper)
    (hb : ∀ v ∈ b, v.IsProper) :
    orderKeys? direction a b = none ↔ KeyTie a b ∧ KeyInfinite a := by
  cases a with
  | none => cases b <;> simp [orderKeys?, KeyInfinite]
  | some a =>
    cases b with
    | none => simp [orderKeys?, KeyTie]
    | some b =>
      simp [orderKeys?, KeyTie, KeyInfinite, Value.order?_eq_none_iff (ha a rfl) (hb b rfl)]

/-- Finite keys have an order. -/
theorem exists_orderKeys? (direction : Direction) (ha : ∀ v ∈ a, v.IsFinite)
    (hb : ∀ v ∈ b, v.IsFinite) : ∃ o, orderKeys? direction a b = some o := by
  cases a with
  | none => cases b <;> exact ⟨_, rfl⟩
  | some a =>
    cases b with
    | none => exact ⟨_, rfl⟩
    | some b =>
      obtain ⟨o, ho⟩ := Value.exists_order? (ha a rfl) (hb b rfl)
      exact ⟨direction.apply o, by rw [orderKeys?, ho, Option.map_some]⟩

/-- The order of finite keys is this one. -/
theorem orderKeys?_cases (direction : Direction) (ha : ∀ v ∈ a, v.IsFinite)
    (hb : ∀ v ∈ b, v.IsFinite) :
    orderKeys? direction a b = some .lt ∧ KeyLess direction a b ∨
      orderKeys? direction a b = some .eq ∧ KeyTie a b ∨
      orderKeys? direction a b = some .gt ∧ KeyLess direction b a := by
  have lt := orderKeys?_eq_lt_iff direction (fun v hv => (ha v hv).1) fun v hv => (hb v hv).1
  have gt := orderKeys?_eq_gt_iff direction (fun v hv => (ha v hv).1) fun v hv => (hb v hv).1
  obtain ⟨o, ho⟩ := exists_orderKeys? direction ha hb
  rw [ho] at lt gt ⊢
  cases o with
  | lt => exact .inl ⟨rfl, lt.mp rfl⟩
  | eq => exact .inr (.inl ⟨rfl, keyTie_iff.mpr ⟨mt lt.mpr nofun, mt gt.mpr nofun⟩⟩)
  | gt => exact .inr (.inr ⟨rfl, gt.mp rfl⟩)

end PhotoQuery
