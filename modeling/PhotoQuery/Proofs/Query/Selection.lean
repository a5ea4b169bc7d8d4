import Mathlib.Data.List.Nodup
import PhotoQuery.Proofs.Expr.Compiling
import PhotoQuery.Proofs.Sort.Key
import PhotoQuery.Query.Compiled

/-!
# Query — what a query selects

A query selects positions of a list: those whose photos it holds of, ranked by their keys and cut
off at the limit.  `CompiledQuery.Selects` says which positions these are, and
`CompiledQuery.apply_selects` that applying the query gives the photos there, in that order.

Selecting photos and selecting positions are the same function at two types
(`CompiledQuery.map_applyOn`), so nothing is said about photos that occur twice.
-/

namespace PhotoQuery

open Outcome

namespace CompiledQuery

variable {α β : Type} {source : Text} {q : CompiledQuery} {photos : List Image}

/-! ### The parts of a compiled query -/

/-- A compiled query ranks by the key of its sort clause, and not without one. -/
theorem ranking_of_ofSource (h : CompiledQuery.ofSource source = .ok q) :
    match q.query.sort with
    | none => q.ranking = none
    | some clause => ∃ key, keyReader clause.path = .ok key ∧
        q.ranking = some ⟨clause.direction, key⟩ := by
  obtain ⟨query, -, h⟩ := bind_eq_ok.mp h
  obtain ⟨holds, -, h⟩ := bind_eq_ok.mp h
  obtain ⟨ranking, hr, h⟩ := bind_eq_ok.mp h
  cases h
  unfold Query.ranking? at hr
  cases hs : query.sort with
  | none =>
    rw [hs] at hr
    exact (Except.ok.inj hr).symm
  | some clause =>
    rw [hs] at hr
    obtain ⟨found, hf, rfl⟩ := map_eq_ok.mp hr
    obtain ⟨key, hk, rfl⟩ := map_eq_ok.mp (reportAt_eq_ok.mp hf)
    exact ⟨key, hk, rfl⟩

theorem unranked (h : CompiledQuery.ofSource source = .ok q) (hs : q.query.sort = none) :
    q.ranking = none := by
  have clause := ranking_of_ofSource h
  rwa [hs] at clause

theorem exists_ranking (h : CompiledQuery.ofSource source = .ok q) (hs : q.query.sort.isSome) :
    ∃ ranking, q.ranking = some ranking := by
  have clause := ranking_of_ofSource h
  obtain ⟨c, hc⟩ := Option.isSome_iff_exists.mp hs
  rw [hc] at clause
  obtain ⟨key, -, hr⟩ := clause
  exact ⟨_, hr⟩

/-- The selected items in the order of the query, before the limit cuts. -/
def ordered (q : CompiledQuery) (photo : α → Image) (items : List α) : List α :=
  let selected := items.filter fun x => q.holds (photo x)
  match q.ranking with
  | none => selected
  | some ranking => ranking.sortOn photo selected

/-- Applying a query is ordering what it holds of, and keeping as much as the limit says. -/
theorem applyOn_eq_take (photo : α → Image) (items : List α) :
    q.applyOn photo items =
      (q.ordered photo items).take (q.query.limit.getD (q.ordered photo items).length) := by
  unfold applyOn
  cases q.query.limit with
  | none => exact List.take_length.symm
  | some limit => rfl

theorem applyOn_of_unlimited (hl : q.query.limit = none) (photo : α → Image) (items : List α) :
    q.applyOn photo items = q.ordered photo items := by
  rw [applyOn_eq_take, hl]
  exact List.take_length

/-- The limit leaves the order as it is. -/
theorem applyOn_sublist (photo : α → Image) (items : List α) :
    (q.applyOn photo items).Sublist (q.ordered photo items) :=
  q.applyOn_eq_take photo items ▸ List.take_sublist _ _

/-- Without a ranking the selected items stay as they stand. -/
theorem ordered_of_unranked (hr : q.ranking = none) (photo : α → Image) (items : List α) :
    q.ordered photo items = items.filter fun x => q.holds (photo x) := by
  rw [ordered, hr]

/-- A ranking sorts the selected items, and leaves ties as they stand. -/
theorem ordered_of_ranking {ranking : Ranking} (hr : q.ranking = some ranking)
    (photo : α → Image) (items : List α) :
    q.ordered photo items =
      stableSort (fun x y => ranking.order? (photo x) (photo y))
        (items.filter fun x => q.holds (photo x)) := by
  rw [ordered, hr]
  rfl

/-- Ordering leaves nothing out and adds nothing. -/
theorem ordered_perm (photo : α → Image) (items : List α) :
    (q.ordered photo items).Perm (items.filter fun x => q.holds (photo x)) := by
  cases hr : q.ranking with
  | none => rw [ordered_of_unranked hr]
  | some ranking =>
    rw [ordered_of_ranking hr]
    exact stableSort_perm _ _

theorem map_ordered (photo : β → Image) (f : α → β) (items : List α) :
    (q.ordered (fun x => photo (f x)) items).map f = q.ordered photo (items.map f) := by
  cases hr : q.ranking with
  | none =>
    rw [ordered_of_unranked hr, ordered_of_unranked hr, List.filter_map]
    rfl
  | some ranking =>
    rw [ordered_of_ranking hr, ordered_of_ranking hr, List.filter_map]
    exact map_stableSort (fun x y => ranking.order? (photo x) (photo y)) f _

/-- Selecting by what an item has in it is selecting that. -/
theorem map_applyOn (photo : β → Image) (f : α → β) (items : List α) :
    (q.applyOn (fun x => photo (f x)) items).map f = q.applyOn photo (items.map f) := by
  rw [applyOn_eq_take, applyOn_eq_take, List.map_take, map_ordered, ← map_ordered,
    List.length_map]

/-- Applying a query to photos gives those at the places that it selects. -/
theorem apply_eq_map_applyOn (photos : List Image) :
    q.apply photos = (q.applyOn photos.get (List.finRange photos.length)).map photos.get := by
  have same := q.map_applyOn id photos.get (List.finRange photos.length)
  rw [List.map_get_finRange] at same
  exact same.symm

/-! ### Positions -/

variable {direction : Direction} {key : Image → Option Value}

/-- One position comes before another: by the key of its photo, and where the keys tie, as they
stand in the list. -/
def Precedes (direction : Direction) (key : Image → Option Value) (photos : List Image)
    (i j : Fin photos.length) : Prop :=
  KeyLess direction (key (photos.get i)) (key (photos.get j)) ∨
    KeyTie (key (photos.get i)) (key (photos.get j)) ∧ i < j

namespace Precedes

variable {i j : Fin photos.length}

/-- What comes later has no lesser key. -/
theorem not_less (h : Precedes direction key photos i j) :
    ¬ KeyLess direction (key (photos.get j)) (key (photos.get i)) := by
  rcases h with less | ⟨tie, -⟩
  · exact (keyLess_weakOrder direction).asymm less
  · exact (keyTie_iff.mp tie).2

/-- Where keys tie, what comes first stands first. -/
theorem lt_of_tie (h : Precedes direction key photos i j)
    (tie : KeyTie (key (photos.get i)) (key (photos.get j))) : i < j := by
  rcases h with less | ⟨-, lt⟩
  · exact absurd less (keyTie_iff.mp tie).1
  · exact lt

/-- Behind a photo without a key there is none with one. -/
theorem absent (h : Precedes direction key photos i j) (none : key (photos.get i) = none) :
    key (photos.get j) = .none := by
  unfold Precedes at h
  rw [none] at h
  rcases h with less | ⟨tie, -⟩
  · exact absurd less KeyLess.not_none
  · exact Option.map_eq_none_iff.mp tie.symm

end Precedes

/-- The positions of the photos that the query holds of, as they stand. -/
def matching (q : CompiledQuery) (photos : List Image) : List (Fin photos.length) :=
  (List.finRange photos.length).filter fun i => q.holds (photos.get i)

/-- The positions are ranked by the keys of their photos, and come before all others that match. -/
structure Leads (q : CompiledQuery) (photos : List Image) (direction : Direction)
    (key : Image → Option Value) (picks : List (Fin photos.length)) : Prop where
  ascending : picks.Pairwise fun i j => q.order? (photos.get i) (photos.get j) ≠ some .gt
  ties : picks.Pairwise fun i j => KeyTie (key (photos.get i)) (key (photos.get j)) → i < j
  absent : picks.Pairwise fun i j => key (photos.get i) = none → key (photos.get j) = none
  rest : ∀ j, q.holds (photos.get j) → j ∉ picks → ∀ i ∈ picks, Precedes direction key photos i j

/-- The positions are those that the query selects, in its order. -/
structure Selects (q : CompiledQuery) (photos : List Image) (picks : List (Fin photos.length)) :
    Prop where
  nodup : picks.Nodup
  holds : ∀ i ∈ picks, q.holds (photos.get i)
  length : picks.length =
    match q.query.limit with
    | none => (q.matching photos).length
    | some limit => min limit (q.matching photos).length
  unsorted : q.query.sort = none → picks = (q.matching photos).take picks.length
  sorted : ∀ clause, q.query.sort = some clause →
    ∃ key, keyReader clause.path = .ok key ∧ q.Leads photos clause.direction key picks

/-- Under the sort clause, if there is one, no photo that the query holds of has an invalid date or
a number that is none as its key. -/
def HasProperKeys (q : CompiledQuery) (photos : List Image) : Prop :=
  ∀ clause, q.query.sort = some clause → ∀ key, keyReader clause.path = .ok key →
    ∀ photo ∈ photos, q.holds photo → ∀ v ∈ key photo, v.IsProper

/-- Proper keys are proper for the ranking of the query. -/
theorem HasProperKeys.of_ranking (hk : q.HasProperKeys photos)
    (h : CompiledQuery.ofSource source = .ok q) {ranking : Ranking}
    (hr : q.ranking = some ranking) :
    ∀ photo ∈ photos, q.holds photo → ∀ v ∈ ranking.key photo, v.IsProper := by
  have clause := ranking_of_ofSource h
  cases hs : q.query.sort with
  | none =>
    rw [hs] at clause
    cases hr.symm.trans clause
  | some c =>
    rw [hs] at clause
    obtain ⟨key, found, hr'⟩ := clause
    obtain rfl : ranking = ⟨c.direction, key⟩ := Option.some.inj (hr.symm.trans hr')
    exact hk c hs key found

/-- The ranking of a query sorts what the query selects, if its keys are proper. -/
theorem HasProperKeys.ranks {photo : α → Image} {items : List α}
    (hk : q.HasProperKeys (items.map photo)) (h : CompiledQuery.ofSource source = .ok q)
    {ranking : Ranking} (hr : q.ranking = some ranking) :
    Ranks (fun x y => ranking.order? (photo x) (photo y))
      (fun x y => KeyLess ranking.direction (ranking.key (photo x)) (ranking.key (photo y)))
      (items.filter fun x => q.holds (photo x)) :=
  ranking.ranks fun x hx =>
    hk.of_ranking h hr (photo x) (List.mem_map_of_mem (List.mem_of_mem_filter hx))
      (List.mem_filter.mp hx).2

/-- Keys that are strings are proper. -/
theorem HasProperKeys.of_strings {clause : SortClause} {text : Image → Option Text}
    (hs : q.query.sort = some clause)
    (hk : keyReader clause.path = .ok fun photo => (text photo).map .string) :
    q.HasProperKeys photos := by
  intro clause' hc key hkey photo _ _ v hv
  cases hs.symm.trans hc
  cases hk.symm.trans hkey
  obtain ⟨_, -, rfl⟩ := Option.map_eq_some_iff.mp hv
  exact ⟨nofun, nofun⟩

theorem mem_matching {i : Fin photos.length} : i ∈ q.matching photos ↔ q.holds (photos.get i) := by
  simp [matching]

/-- The matching positions are in ascending order. -/
theorem pairwise_matching : (q.matching photos).Pairwise (· < ·) :=
  List.Pairwise.filter _ (List.pairwise_lt_finRange _)

/-- A sort clause puts the positions in the order of `Precedes`. -/
theorem pairwise_ordered (hr : q.ranking = some ⟨direction, key⟩)
    (proper : ∀ i ∈ q.matching photos, ∀ v ∈ key (photos.get i), v.IsProper) :
    (q.ordered photos.get (List.finRange photos.length)).Pairwise
      (Precedes direction key photos) := by
  let ranking : Ranking := ⟨direction, key⟩
  have sorted := pairwise_stableSort (ranking.weakOrder photos.get) (ranking.ranks proper)
    pairwise_matching
  rw [ordered_of_ranking hr]
  exact sorted.imp thenBy_keyLess_iff.mp

/-- What the limit keeps leads what it cuts off. -/
theorem leads_of_ranking {picks rest : List (Fin photos.length)}
    (hr : q.ranking = some ⟨direction, key⟩)
    (proper : ∀ i ∈ q.matching photos, ∀ v ∈ key (photos.get i), v.IsProper)
    (hs : q.ordered photos.get (List.finRange photos.length) = picks ++ rest) :
    q.Leads photos direction key picks := by
  have perm := hs ▸ q.ordered_perm photos.get (List.finRange photos.length)
  have before := pairwise_ordered hr proper
  rw [hs, List.pairwise_append] at before
  obtain ⟨before, -, across⟩ := before
  have member : ∀ i ∈ picks, i ∈ q.matching photos := fun i hi =>
    perm.mem_iff.mp (List.mem_append_left rest hi)
  constructor
  case ascending =>
    refine before.imp_of_mem fun {i j} hi hj hij => ?_
    have gt := orderKeys?_eq_gt_iff direction (proper i (member i hi)) (proper j (member j hj))
    rw [CompiledQuery.order?, hr]
    exact mt gt.mp hij.not_less
  case ties => exact before.imp Precedes.lt_of_tie
  case absent => exact before.imp Precedes.absent
  case rest =>
    intro j hj out i hi
    -- a position that matches and is not picked was cut off
    have found : j ∈ picks ++ rest := perm.mem_iff.mpr (mem_matching.mpr hj)
    exact across i hi j ((List.mem_append.mp found).resolve_left out)

/-- **A query selects the first of the matching photos.**  No position is selected twice, and there
are as many as match, up to the limit.  Without a sort clause they are the first that match; with
one, they are ranked by its keys, and no position that is left out should have come before them. -/
theorem apply_selects (h : CompiledQuery.ofSource source = .ok q) (photos : List Image)
    (hk : q.HasProperKeys photos) :
    ∃ picks : List (Fin photos.length), q.apply photos = picks.map photos.get ∧
      q.Selects photos picks := by
  refine ⟨_, q.apply_eq_map_applyOn photos, ?_⟩
  have clause := ranking_of_ofSource h
  have perm : (q.ordered photos.get _).Perm (q.matching photos) := q.ordered_perm ..
  have cut := q.applyOn_eq_take photos.get (List.finRange photos.length)
  -- what is selected is the front of the matching positions in the order of the query
  have sub : (q.applyOn photos.get _).Sublist _ := cut ▸ List.take_sublist ..
  constructor
  case nodup =>
    exact sub.nodup (perm.nodup_iff.mpr (pairwise_matching.imp Fin.ne_of_lt))
  case holds => exact fun i hi => mem_matching.mp (perm.mem_iff.mp (sub.subset hi))
  case length =>
    rw [cut, List.length_take, perm.length_eq]
    cases q.query.limit with
    | none => exact Nat.min_self _
    | some limit => rfl
  case unsorted =>
    intro none
    rw [none] at clause
    rw [cut, ordered_of_unranked clause, List.length_take, List.take_eq_take_min]
    rfl
  case sorted =>
    intro c hc
    rw [hc] at clause
    obtain ⟨key, hkey, hr⟩ := clause
    have proper : ∀ i ∈ q.matching photos, ∀ v ∈ key (photos.get i), v.IsProper := fun i hi =>
      hk c hc key hkey (photos.get i) (List.getElem_mem _) (mem_matching.mp hi)
    exact ⟨key, hkey, leads_of_ranking hr proper (cut ▸ (List.take_append_drop ..).symm)⟩

/-- Two of the three photos that are asked for have the same camera, and the third has none. -/
theorem apply_selects_model :
    let photo (name : String) (exif : Option Exif) : Image :=
      { filename := .ofString name, width := .zero, height := .zero, exif }
    let photos : List Image :=
      [photo "a" none, photo "b" (some { model := some (.ofString "X") }),
        photo "c" (some { model := some (.ofString "X") }), photo "d" none]
    ∃ q, CompiledQuery.ofSource
        (.ofString "filename != 'd' | sort exif.model desc | limit 2") = .ok q ∧
      q.HasProperKeys photos ∧
      ∃ picks : List (Fin photos.length), q.apply photos = picks.map photos.get ∧
        q.Selects photos picks := by
  intro photo photos
  have h : (CompiledQuery.ofSource
      (.ofString "filename != 'd' | sort exif.model desc | limit 2")).map (·.query.sort) =
      .ok (some ⟨[.ofString "exif", .ofString "model"], .descending, 18⟩) := by
    decide +kernel
  have reader : keyReader [.ofString "exif", .ofString "model"] =
      .ok fun photo => (photo.exif.bind (·.model)).map .string := rfl
  obtain ⟨q, hq, hs⟩ := map_eq_ok.mp h
  have hk : q.HasProperKeys photos := by
    intro clause hc key hkey photo _ _ v hv
    cases hs.symm.trans hc
    cases reader.symm.trans hkey
    obtain ⟨text, -, rfl⟩ := Option.map_eq_some_iff.mp hv
    exact ⟨nofun, nofun⟩
  exact ⟨q, hq, hk, apply_selects hq photos hk⟩

end CompiledQuery

end PhotoQuery
