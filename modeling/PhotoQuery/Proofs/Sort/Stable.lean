import Mathlib.Data.List.FinRange
import Mathlib.Order.Lattice
import PhotoQuery.Sort.Stable

/-!
# Sort — what stable sorting does

Items are ranked by a weak order: items may tie, and ties go together.  Where the order that is
sorted by puts an item after another exactly if the weak order does, sorting gives the items again,
each before those that it ranks before, and ties as they stood (`pairwise_stableSort`).  `thenBy`
ranks by a second relation where the first ties, so the statement is one line: if the items stand
in the order `r`, they come out in the order `thenBy less r`.

The order that is sorted by may leave a pair without an order, like a tie.

All that sorting asks of the order is whether it puts an item behind one that stands later
(`stableSort_eq_of_pairwise`).  So it makes no difference to break ties by what the items are in the
order of already.

Where no two items tie, the order in which they stood makes no difference at all
(`stableSort_eq_of_perm`).  Where items tie, it makes no difference to what ties go by
(`map_eq_of_ranked`).

A sorted list is left as it is (`stableSort_eq_self`), and selecting from it is sorting what is
selected (`filter_stableSort`).

Sorting items by what is seen in them is sorting what is seen (`map_stableSort`).
-/

namespace PhotoQuery

variable {α β : Type}

/-! ### Weak orders -/

/-- The relation ranks items: none before itself, and where one is before another, any third is
after the first or before the second. -/
structure WeakOrder (less : α → α → Prop) : Prop where
  asymm {a b : α} : less a b → ¬ less b a
  split {a c : α} (b : α) : less a c → less a b ∨ less b c

/-- The order by the first relation, and by the second where that ties. -/
def thenBy (r s : α → α → Prop) (a b : α) : Prop := r a b ∨ ¬ r b a ∧ s a b

namespace WeakOrder

variable {r s : α → α → Prop}

theorem irrefl (h : WeakOrder r) (a : α) : ¬ r a a := fun hr => h.asymm hr hr

theorem on (h : WeakOrder r) (f : β → α) : WeakOrder fun a b => r (f a) (f b) where
  asymm := h.asymm
  split b := h.split (f b)

theorem lt [LinearOrder α] : WeakOrder fun a b : α => a < b where
  asymm := lt_asymm
  split b h := (lt_or_ge _ b).imp_right fun hba => lt_of_le_of_lt hba h

/-- Breaking the ties of a weak order by another one gives a weak order. -/
theorem thenBy (hr : WeakOrder r) (hs : WeakOrder s) : WeakOrder (PhotoQuery.thenBy r s) where
  asymm {a b} := by
    rintro (hab | ⟨hba, hab⟩)
    · exact fun h => h.elim (hr.asymm hab) fun h => h.1 hab
    · exact fun h => h.elim hba fun h => hs.asymm hab h.2
  split {a c} b := by
    rintro (hac | ⟨hca, hac⟩)
    · exact (hr.split b hac).imp .inl .inl
    · by_cases hab : r a b
      · exact .inl (.inl hab)
      by_cases hbc : r b c
      · exact .inr (.inl hbc)
      -- neither is strict, so all three tie under `r`
      have hba : ¬ r b a := fun h => (hr.split c h).elim hbc hca
      have hcb : ¬ r c b := fun h => (hr.split a h).elim hca hab
      exact (hs.split b hac).imp (.inr ⟨hba, ·⟩) (.inr ⟨hcb, ·⟩)

end WeakOrder

/-! ### Sorting -/

variable {order? : α → α → Option Ordering} {less r : α → α → Prop} {items : List α}

/-- On the items, one is put after another exactly if it is ranked after it. -/
def Ranks (order? : α → α → Option Ordering) (less : α → α → Prop) (items : List α) : Prop :=
  ∀ a ∈ items, ∀ b ∈ items, order? a b = some .gt ↔ less b a

/-- Sorting leaves nothing out and adds nothing. -/
theorem stableSort_perm (order? : α → α → Option Ordering) (items : List α) :
    (stableSort order? items).Perm items := List.mergeSort_perm _ _

/-- Sorting items by what is seen in them is sorting what is seen. -/
theorem map_stableSort (order? : β → β → Option Ordering) (f : α → β) (items : List α) :
    (stableSort (fun a b => order? (f a) (f b)) items).map f = stableSort order? (items.map f) :=
  List.map_mergeSort fun _ _ _ _ => rfl

/-- Sorting looks at the order of the items only. -/
theorem stableSort_congr {order?' : α → α → Option Ordering}
    (h : ∀ a ∈ items, ∀ b ∈ items, order? a b = order?' a b) :
    stableSort order? items = stableSort order?' items := by
  have same : ∀ a ∈ items, ∀ b ∈ items, (order? a b != some .gt) = (order?' a b != some .gt) :=
    fun a ha b hb => congrArg (· != some .gt) (h a ha b hb)
  have sorted := List.map_mergeSort (s := fun a b => order?' a b != some .gt) (f := id) same
  rwa [List.map_id, List.map_id] at sorted

/-! ### One question for each pair -/

section

variable {le le' : α → α → Bool} (total : ∀ a b, le a b || le b a)
  (total' : ∀ a b, le' a b || le' b a)

include total

/-- Once items are numbered, the first of two stays in front unless the order puts it behind. -/
theorem zipIdxLE_of_lt (a b : α) {i j : Nat} (h : i < j) :
    List.zipIdxLE le (a, i) (b, j) = le a b ∧ List.zipIdxLE le (b, j) (a, i) = !le a b := by
  have some := total a b
  simp only [List.zipIdxLE, Nat.le_of_lt h, Nat.not_le.mpr h, decide_true, decide_false, ite_self]
  cases hab : le a b <;> cases hba : le b a <;> simp_all

include total'

/-- **Sorting asks one question** of two items: whether the one that stands first may stay in
front.  Two orders with the same answers sort alike. -/
theorem mergeSort_eq_of_pairwise (h : items.Pairwise fun a b => le a b = le' a b) :
    items.mergeSort le = items.mergeSort le' := by
  have first {i j : Nat} (hij : i < j) {a b : α} (ha : items[i]? = some a)
      (hb : items[j]? = some b) : le a b = le' a b := by
    obtain ⟨hi, rfl⟩ := List.getElem?_eq_some_iff.mp ha
    obtain ⟨hj, rfl⟩ := List.getElem?_eq_some_iff.mp hb
    exact List.pairwise_iff_getElem.mp h i j hi hj hij
  have same : ∀ p ∈ items.zipIdx, ∀ q ∈ items.zipIdx,
      List.zipIdxLE le p q = List.zipIdxLE le' p q := by
    rintro ⟨a, i⟩ hp ⟨b, j⟩ hq
    have ha := List.mem_zipIdx_iff_getElem?.mp hp
    have hb := List.mem_zipIdx_iff_getElem?.mp hq
    rcases Nat.lt_trichotomy i j with hij | rfl | hji
    · rw [(zipIdxLE_of_lt total a b hij).1, (zipIdxLE_of_lt total' a b hij).1, first hij ha hb]
    · obtain rfl : a = b := Option.some.inj (ha.symm.trans hb)
      have refl : le a a ∧ le' a a := by simpa using And.intro (total a a) (total' a a)
      simp [List.zipIdxLE, refl]
    · rw [(zipIdxLE_of_lt total b a hji).2, (zipIdxLE_of_lt total' b a hji).2, first hji hb ha]
  have sorted := List.map_mergeSort (s := List.zipIdxLE le') (f := id) same
  rw [List.map_id, List.map_id] at sorted
  rw [← @List.mergeSort_zipIdx α le, sorted, List.mergeSort_zipIdx]

end

/-- Two orders that put the same items behind later ones sort alike. -/
theorem stableSort_eq_of_pairwise {order?' : α → α → Option Ordering}
    (asymm : ∀ a b, order? a b = some .gt → order? b a ≠ some .gt)
    (asymm' : ∀ a b, order?' a b = some .gt → order?' b a ≠ some .gt)
    (h : items.Pairwise fun a b => order? a b = some .gt ↔ order?' a b = some .gt) :
    stableSort order? items = stableSort order?' items := by
  have total {o : α → α → Option Ordering} (ho : ∀ a b, o a b = some .gt → o b a ≠ some .gt)
      (a b : α) : (o a b != some .gt) || (o b a != some .gt) := by
    simp only [Bool.or_eq_true, bne_iff_ne]
    exact (Classical.em (o a b = some .gt)).elim (fun gt => .inr (ho a b gt)) .inl
  refine mergeSort_eq_of_pairwise (total asymm) (total asymm') (h.imp fun {a b} same => ?_)
  rw [Bool.eq_iff_iff, bne_iff_ne, bne_iff_ne]
  exact not_congr same

/-! ### Weak orders and sorting -/

open Classical in
/-- The first item is not ranked after the second. -/
noncomputable def notAfter (less : α → α → Prop) (a b : α) : Bool := decide (¬ less b a)

open Classical in
theorem notAfter_iff {a b : α} : notAfter less a b ↔ ¬ less b a := decide_eq_true_iff

/-- Not to be ranked after is transitive, since any third item splits the order. -/
theorem WeakOrder.notAfter_trans (hw : WeakOrder less) (a b c : α) (hab : notAfter less a b)
    (hbc : notAfter less b c) : notAfter less a c := by
  rw [notAfter_iff] at *
  exact fun hca => (hw.split b hca).elim hbc hab

theorem WeakOrder.notAfter_total (hw : WeakOrder less) (a b : α) :
    notAfter less a b || notAfter less b a := by
  rw [Bool.or_eq_true, notAfter_iff, notAfter_iff]
  exact (Classical.em (less b a)).elim (fun h => .inr (hw.asymm h)) .inl

/-- Sorting by an order that may be partial is sorting by the weak order that it agrees with. -/
theorem stableSort_eq_mergeSort (hd : Ranks order? less items) :
    stableSort order? items = items.mergeSort (notAfter less) := by
  have same : ∀ a ∈ items, ∀ b ∈ items,
      (order? a b != some .gt) = notAfter less (id a) (id b) := by
    intro a ha b hb
    rw [Bool.eq_iff_iff, bne_iff_ne, notAfter_iff]
    exact not_congr (hd a ha b hb)
  have sorted := List.map_mergeSort same
  rwa [List.map_id, List.map_id] at sorted

/-- Merge sort leaves items that tie with each other as they stand. -/
theorem filter_mergeSort {le : α → α → Bool} (trans : ∀ a b c, le a b → le b c → le a c)
    (total : ∀ a b, le a b || le b a) {p : α → Bool} (ties : ∀ a b, p a → p b → le a b)
    (items : List α) : (items.mergeSort le).filter p = items.filter p := by
  have sorted : (items.filter p).Pairwise (fun a b => le a b) :=
    List.pairwise_of_forall_mem_list fun a ha b hb =>
      ties a b (List.mem_filter.mp ha).2 (List.mem_filter.mp hb).2
  have kept := (List.sublist_mergeSort trans total sorted List.filter_sublist).filter p
  rw [List.filter_filter] at kept
  simp only [Bool.and_self] at kept
  exact (kept.eq_of_length ((List.mergeSort_perm items le).filter p).length_eq.symm).symm

/-- **Sorting is stable.**  Items that stand in some order come out ranked, and ties among them in
that order. -/
theorem pairwise_stableSort (hw : WeakOrder less) (hd : Ranks order? less items)
    (hr : items.Pairwise r) : (stableSort order? items).Pairwise (thenBy less r) := by
  rw [stableSort_eq_mergeSort hd, List.pairwise_iff_forall_sublist]
  intro a b pair
  have ranked := List.pairwise_mergeSort hw.notAfter_trans hw.notAfter_total items
  have hba : ¬ less b a := notAfter_iff.mp (List.pairwise_iff_forall_sublist.mp ranked pair)
  by_cases hab : less a b
  · exact .inl hab
  refine .inr ⟨hba, ?_⟩
  -- the items that tie with `a` come out as they stood, and `b` is one of them
  let tie : α → Bool := fun x => notAfter less a x && notAfter less x a
  have ties : ∀ x y, tie x → tie y → notAfter less x y := by
    intro x y hx hy
    rw [Bool.and_eq_true] at hx hy
    exact hw.notAfter_trans x a y hx.2 hy.1
  have both : [a, b].filter tie = [a, b] := by
    simp [tie, notAfter, hab, hba, hw.irrefl a]
  have stood := pair.filter tie
  rw [both, filter_mergeSort hw.notAfter_trans hw.notAfter_total ties] at stood
  exact List.pairwise_iff_forall_sublist.mp hr (stood.trans List.filter_sublist)

/-- Where ranking leaves no two items undecided, permuted lists sort alike. -/
theorem stableSort_eq_of_perm {items' : List α} (hw : WeakOrder less)
    (hd : Ranks order? less items) (perm : items.Perm items')
    (decided : ∀ a ∈ items, ∀ b ∈ items, ¬ less a b → ¬ less b a → a = b) :
    stableSort order? items = stableSort order? items' := by
  have hd' : Ranks order? less items' := fun a ha b hb =>
    hd a (perm.mem_iff.mpr ha) b (perm.mem_iff.mpr hb)
  have ranked (l : List α) := List.pairwise_mergeSort hw.notAfter_trans hw.notAfter_total l
  have sorted (l : List α) := List.mergeSort_perm l (notAfter less)
  rw [stableSort_eq_mergeSort hd, stableSort_eq_mergeSort hd']
  refine ((sorted items).trans (perm.trans (sorted items').symm)).eq_of_pairwise ?_ (ranked items)
    (ranked items')
  intro a b ha hb hab hba
  exact decided a ((sorted items).mem_iff.mp ha) b
    (perm.mem_iff.mpr ((sorted items').mem_iff.mp hb)) (notAfter_iff.mp hba) (notAfter_iff.mp hab)

/-! ### Sorted lists -/

/-- What stands first is not ranked after what stands behind it. -/
theorem not_less_of_thenBy (hw : WeakOrder less) {a b : α} (h : thenBy less r a b) : ¬ less b a :=
  h.elim hw.asymm And.left

theorem Ranks.subset {items' : List α} (hd : Ranks order? less items) (h : items' ⊆ items) :
    Ranks order? less items' :=
  fun a ha b hb => hd a (h ha) b (h hb)

theorem Ranks.on {f : β → α} {places : List β} (hd : Ranks order? less (places.map f)) :
    Ranks (fun a b => order? (f a) (f b)) (fun a b => less (f a) (f b)) places :=
  fun _ ha _ hb => hd _ (List.mem_map_of_mem ha) _ (List.mem_map_of_mem hb)

/-- Sorting puts no item behind one that it is ranked before. -/
theorem ranked_stableSort (hw : WeakOrder less) (hd : Ranks order? less items) :
    (stableSort order? items).Pairwise fun a b => ¬ less b a := by
  have stood : items.Pairwise fun _ _ => True := List.pairwise_of_forall fun _ _ => trivial
  exact (pairwise_stableSort hw hd stood).imp (not_less_of_thenBy hw)

/-- A list that is in order is left as it is. -/
theorem stableSort_eq_self (hd : Ranks order? less items)
    (ranked : items.Pairwise fun a b => ¬ less b a) : stableSort order? items = items := by
  refine List.mergeSort_of_pairwise (ranked.imp_of_mem fun {a b} ha hb notAfter => ?_)
  rw [bne_iff_ne]
  exact mt (hd a ha b hb).mp notAfter

/-- Items that stand in a strict order can be selected before or after sorting: either way they come
out by rank, and by that order where they tie, and this puts them in one order only. -/
theorem filter_stableSort_of_pairwise (hw : WeakOrder less) (hd : Ranks order? less items)
    (hr : WeakOrder r) (stood : items.Pairwise r) (p : α → Bool) :
    (stableSort order? items).filter p = stableSort order? (items.filter p) := by
  have kept : Ranks order? less (items.filter p) := hd.subset (List.filter_subset_self items)
  refine List.Perm.eq_of_pairwise (fun a b _ _ hab hba => ?_)
    ((pairwise_stableSort hw hd stood).filter p) (pairwise_stableSort hw kept (stood.filter p)) ?_
  · exact absurd hba ((hw.thenBy hr).asymm hab)
  · exact ((stableSort_perm order? items).filter p).trans (stableSort_perm order? _).symm

/-- **Selecting from a sorted list** is sorting what is selected. -/
theorem filter_stableSort (hw : WeakOrder less) (hd : Ranks order? less items) (p : α → Bool) :
    (stableSort order? items).filter p = stableSort order? (items.filter p) := by
  -- the same of the places of the items, which stand in a strict order
  have places : (List.finRange items.length).map items.get = items := List.map_get_finRange items
  have ranks : Ranks order? less ((List.finRange items.length).map items.get) := places.symm ▸ hd
  have sorted := filter_stableSort_of_pairwise (hw.on items.get) ranks.on WeakOrder.lt
    (List.pairwise_lt_finRange _) (p ∘ items.get)
  have chosen := congrArg (List.map items.get) sorted
  rwa [← List.filter_map, map_stableSort, map_stableSort, ← List.filter_map, places] at chosen

/-- **Ranked lists of the same items** show the same place by place of whatever ties go by. -/
theorem map_eq_of_ranked {items' : List α} {f : α → β} (hw : WeakOrder less)
    (ties : ∀ {a b}, f a = f b ↔ ¬ less a b ∧ ¬ less b a) (perm : items.Perm items')
    (ranked : items.Pairwise fun a b => ¬ less b a)
    (ranked' : items'.Pairwise fun a b => ¬ less b a) : items.map f = items'.map f := by
  let notAfter : β → β → Prop := Relation.Map (fun a b => ¬ less b a) f f
  have shown {l : List α} (h : l.Pairwise fun a b => ¬ less b a) : (l.map f).Pairwise notAfter :=
    List.pairwise_map.mpr (h.imp fun h => ⟨_, _, h, rfl, rfl⟩)
  refine List.Perm.eq_of_pairwise ?_ (shown ranked) (shown ranked') (perm.map f)
  rintro _ _ _ _ ⟨a, b, hab, rfl, rfl⟩ ⟨b', a', hba, hb, ha⟩
  refine ties.mpr ⟨fun less => ?_, hab⟩
  -- `a` ties with `a'` and `b` with `b'`, so `a'` would be ranked before `b'`
  rcases hw.split a' less with less | less
  · exact (ties.mp ha).2 less
  · exact (hw.split b' less).elim hba (ties.mp hb).1

end PhotoQuery
