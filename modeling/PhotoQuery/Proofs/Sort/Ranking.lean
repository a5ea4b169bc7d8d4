import Mathlib.Data.List.FinRange
import PhotoQuery.Proofs.Sort.Key

/-!
# Sort — ranked lists

A ranking puts the places of a list in one order without ties (`Ranking.Precedes`): by the keys of
the items that stand there, in the direction of the ranking, and by the places themselves where
keys tie, in ascending order for both directions.

Comparing keys, and places where keys do not decide, is comparing in this order
(`Ranking.comparePlaces_eq_lt_iff`).  This covers keys that tie and keys that have no order, such as
two equal infinities, alike.  So there is exactly one way to arrange a list, and it is the one that
sorting takes (`Ranking.sortOn_unique`).
-/

namespace PhotoQuery

namespace Ranking

variable {α : Type} (ranking : Ranking) (photo : α → Image) (items : List α)

/-- The key of the item at the place. -/
def keyAt (i : Fin items.length) : Option Value := ranking.key (photo (items.get i))

/-- One place comes before another: by key in the direction, or where the keys tie, as they
stand. -/
def Precedes (i j : Fin items.length) : Prop :=
  KeyLess ranking.direction (ranking.keyAt photo items i) (ranking.keyAt photo items j) ∨
    KeyTie (ranking.keyAt photo items i) (ranking.keyAt photo items j) ∧ i < j

/-- How two places compare: their keys decide, and if these are equal or have no order, the places
themselves. -/
def comparePlaces (i j : Fin items.length) : Ordering :=
  ((ranking.order? (photo (items.get i)) (photo (items.get j))).getD .eq).then (compare i j)

/-- All places of the list, in the order of the ranking. -/
structure Arranges (places : List (Fin items.length)) : Prop where
  perm : places.Perm (List.finRange items.length)
  ordered : places.Pairwise (ranking.Precedes photo items)

variable {ranking photo items}

/-- The places are ranked by key, and where keys tie as they stand. -/
theorem precedes_eq_thenBy : ranking.Precedes photo items =
    thenBy (fun i j => KeyLess ranking.direction (ranking.keyAt photo items i)
      (ranking.keyAt photo items j)) (· < ·) :=
  funext fun _ => funext fun _ => propext thenBy_keyLess_iff.symm

theorem precedes_weakOrder : WeakOrder (ranking.Precedes photo items) :=
  precedes_eq_thenBy ▸ ((keyLess_weakOrder _).on _).thenBy .lt

/-- A list is arranged in one way at most. -/
theorem Arranges.eq {places places' : List (Fin items.length)}
    (h : ranking.Arranges photo items places) (h' : ranking.Arranges photo items places') :
    places = places' :=
  (h.perm.trans h'.perm.symm).eq_of_pairwise
    (fun _ _ _ _ hij hji => absurd hji (precedes_weakOrder.asymm hij)) h.ordered h'.ordered

/-- Two places compare the other way round if they are exchanged, also where their keys have no
order. -/
instance : Std.OrientedCmp (ranking.comparePlaces photo items) where
  eq_swap {i j} := by
    rw [comparePlaces, comparePlaces, order?, order?,
      orderKeys?_swap ranking.direction (ranking.key (photo (items.get j))), Ordering.swap_then,
      Std.OrientedOrd.eq_swap (a := i)]
    cases orderKeys? ranking.direction _ _ <;> rfl

/-- No two places tie. -/
theorem comparePlaces_eq_eq_iff {i j : Fin items.length} :
    ranking.comparePlaces photo items i j = .eq ↔ i = j := by
  constructor
  · intro same
    rw [comparePlaces, Ordering.then_eq_eq] at same
    exact Std.compare_eq_iff_eq.mp same.2
  · rintro rfl
    exact Std.ReflCmp.compare_self

/-- Places of proper keys compare as they precede each other. -/
theorem comparePlaces_eq_lt_iff {i j : Fin items.length}
    (hi : ∀ v ∈ ranking.keyAt photo items i, v.IsProper)
    (hj : ∀ v ∈ ranking.keyAt photo items j, v.IsProper) :
    ranking.comparePlaces photo items i j = .lt ↔ ranking.Precedes photo items i j := by
  have greater := orderKeys?_eq_gt_iff ranking.direction hi hj
  have less := orderKeys?_eq_lt_iff ranking.direction hi hj
  have places : compare i j = .lt ↔ i < j := compare_lt_iff_lt
  have keys : ranking.order? (photo (items.get i)) (photo (items.get j)) =
    orderKeys? ranking.direction (ranking.keyAt photo items i) (ranking.keyAt photo items j) := rfl
  rw [Precedes, @keyTie_iff ranking.direction, ← less, ← greater, comparePlaces, keys]
  -- the keys decide, tie, or have no order
  cases orderKeys? ranking.direction (ranking.keyAt photo items i)
    (ranking.keyAt photo items j) with
  | none => simp [places]
  | some o => cases o <;> simp [places]

variable (ranking photo items) in
/-- Sorting the items is sorting their places by key alone. -/
theorem sortOn_eq_map : ranking.sortOn photo items =
    (stableSort (fun i j => orderKeys? ranking.direction (ranking.keyAt photo items i)
      (ranking.keyAt photo items j)) (List.finRange items.length)).map items.get := by
  have sorted := map_stableSort (fun x y => ranking.order? (photo x) (photo y)) items.get
    (List.finRange items.length)
  rw [List.map_get_finRange] at sorted
  exact sorted.symm

/-- Places sorted by proper keys are arranged, because those that tie are left in ascending
order. -/
theorem arranges_stableSort (hk : ∀ i, ∀ v ∈ ranking.keyAt photo items i, v.IsProper) :
    ranking.Arranges photo items
      (stableSort (fun i j => orderKeys? ranking.direction (ranking.keyAt photo items i)
        (ranking.keyAt photo items j)) (List.finRange items.length)) := by
  refine ⟨stableSort_perm _ _, ?_⟩
  rw [precedes_eq_thenBy]
  exact pairwise_stableSort (ranking.weakOrder _) (ranking.ranks fun i _ => hk i)
    (List.pairwise_lt_finRange _)

/-- **Sorting gives the one order of a list.**  If the items have proper keys, infinite or not, or
none, places compare as they precede each other, in a strict order without ties.  The places of the
list are arranged in exactly one way, and sorting gives the items that stand there. -/
theorem sortOn_unique (ranking : Ranking) (photo : α → Image) (items : List α)
    (proper : ∀ x ∈ items, ∀ v ∈ ranking.key (photo x), v.IsProper) :
    (∀ i j, (ranking.comparePlaces photo items i j = .lt ↔ ranking.Precedes photo items i j) ∧
      (ranking.comparePlaces photo items i j = .gt ↔ ranking.Precedes photo items j i) ∧
      (ranking.comparePlaces photo items i j = .eq ↔ i = j)) ∧
    ∃ places, ranking.Arranges photo items places ∧
      (∀ places', ranking.Arranges photo items places' → places' = places) ∧
      ranking.sortOn photo items = places.map items.get := by
  have hk (i : Fin items.length) : ∀ v ∈ ranking.keyAt photo items i, v.IsProper :=
    proper _ (items.get_mem i)
  have arranged := arranges_stableSort hk
  refine ⟨fun i j => ⟨comparePlaces_eq_lt_iff (hk i) (hk j), ?_, comparePlaces_eq_eq_iff⟩, _,
    arranged, fun places' h => h.eq arranged, sortOn_eq_map ranking photo items⟩
  rw [Std.OrientedCmp.gt_iff_lt, comparePlaces_eq_lt_iff (hk j) (hk i)]

/-- Keys of all kinds in descending order: the text, the truth value, two infinities as they stood,
the date, and last the photo without a key. -/
theorem sortOn_unique_mixed :
    let photo (name : String) : Image :=
      { filename := .ofString name, width := .zero, height := .zero }
    let keys : List (Text × Value) :=
      [(.ofString "a", .number (.infinity false)), (.ofString "c", .string (.ofString "x")),
        (.ofString "d", .number (.infinity false)), (.ofString "e", .date (.instant 0)),
        (.ofString "f", .boolean true)]
    let ranking : Ranking := ⟨.descending, fun photo => keys.lookup photo.filename⟩
    let items : List Image := [photo "a", photo "b", photo "c", photo "d", photo "e", photo "f"]
    (∀ x ∈ items, ∀ v ∈ ranking.key x, v.IsProper) ∧
      ranking.Arranges id items [2, 5, 0, 3, 4, 1] ∧
      ranking.sortOn id items =
        [photo "c", photo "f", photo "a", photo "d", photo "e", photo "b"] := by
  intro photo keys ranking items
  have proper : ∀ x ∈ items, ∀ v ∈ ranking.key x, v.IsProper := by
    unfold Value.IsProper
    decide +kernel
  obtain ⟨order, places, -, unique, sorted⟩ := sortOn_unique ranking id items proper
  have ordered : List.Pairwise (ranking.comparePlaces id items · · = .lt) [2, 5, 0, 3, 4, 1] := by
    decide +kernel
  have arranged : ranking.Arranges id items [2, 5, 0, 3, 4, 1] :=
    ⟨by decide, ordered.imp (order _ _).1.mp⟩
  obtain rfl := unique _ arranged
  exact ⟨proper, arranged, sorted⟩

end Ranking

end PhotoQuery
