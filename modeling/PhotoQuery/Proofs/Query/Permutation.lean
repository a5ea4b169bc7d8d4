import PhotoQuery.Proofs.Query.Selection

/-!
# Query — the order in which photos come

A query with a sort clause ranks by keys alone, so the keys that it shows do not depend on the order
in which the photos come (`CompiledQuery.map_ordered_of_perm`).  A limit may fall among photos whose
keys tie, and then which of them it keeps does depend on the order; but it always falls among the
same keys.  Where no two photos tie, the photos themselves do not depend on the order
(`CompiledQuery.ordered_eq_of_perm`).
-/

namespace PhotoQuery.CompiledQuery

open Outcome

section

variable {α : Type} {source : Text} {q : CompiledQuery} {ranking : Ranking} {photo : α → Image}
  {items items' : List α}

/-- Permuted lists show the same places of keys. -/
theorem map_ordered_of_perm (h : ofSource source = .ok q) (hr : q.ranking = some ranking)
    (perm : items.Perm items') (hk : q.HasProperKeys (items.map photo)) :
    (q.ordered photo items).map (fun x => (ranking.key (photo x)).map Value.ordinal) =
      (q.ordered photo items').map fun x => (ranking.key (photo x)).map Value.ordinal := by
  have selected := perm.filter fun x => q.holds (photo x)
  have ranks := hk.ranks h hr
  have order := ranking.weakOrder photo
  rw [ordered_of_ranking hr, ordered_of_ranking hr]
  refine map_eq_of_ranked order keyTie_iff ?_ (ranked_stableSort order ranks)
    (ranked_stableSort order (ranks.subset selected.symm.subset))
  exact (stableSort_perm _ _).trans (selected.trans (stableSort_perm _ _).symm)

/-- Permuted lists are ordered alike, where ties are between one item and itself only. -/
theorem ordered_eq_of_perm (h : ofSource source = .ok q) (hr : q.ranking = some ranking)
    (perm : items.Perm items') (hk : q.HasProperKeys (items.map photo))
    (distinct : ∀ x ∈ items, q.holds (photo x) → ∀ y ∈ items, q.holds (photo y) →
      KeyTie (ranking.key (photo x)) (ranking.key (photo y)) → x = y) :
    q.ordered photo items = q.ordered photo items' := by
  rw [ordered_of_ranking hr, ordered_of_ranking hr]
  refine stableSort_eq_of_perm (ranking.weakOrder photo) (hk.ranks h hr) (perm.filter _) ?_
  intro x hx y hy hxy hyx
  rw [List.mem_filter] at hx hy
  exact distinct x hx.1 hx.2 y hy.1 hy.2 (keyTie_iff.mpr ⟨hxy, hyx⟩)

/-- **The keys that a query shows do not depend on the order of the photos.**  Under a sort clause,
lists that are permutations of each other give lists of one length whose keys tie place by place,
cut off by a limit or not.  Where no two photos that the query holds of tie, they give the same
list. -/
theorem applyOn_perm (h : ofSource source = .ok q) {clause : SortClause}
    (hs : q.query.sort = some clause) (perm : items.Perm items')
    (hk : q.HasProperKeys (items.map photo)) :
    ∃ key, keyReader clause.path = .ok key ∧
      List.Forall₂ (fun x y => KeyTie (key (photo x)) (key (photo y)))
        (q.applyOn photo items) (q.applyOn photo items') ∧
      ((∀ x ∈ items, q.holds (photo x) → ∀ y ∈ items, q.holds (photo y) →
          KeyTie (key (photo x)) (key (photo y)) → x = y) →
        q.applyOn photo items = q.applyOn photo items') := by
  have ranked := ranking_of_ofSource h
  rw [hs] at ranked
  obtain ⟨key, reader, hr⟩ := ranked
  have shown := map_ordered_of_perm h hr perm hk
  have length := congrArg List.length shown
  rw [List.length_map, List.length_map] at length
  refine ⟨key, reader, ?_, fun distinct => ?_⟩
  -- the limit cuts both lists at one place, since they are of one length
  · have places : (q.applyOn photo items).map (fun x => (key (photo x)).map Value.ordinal) =
        (q.applyOn photo items').map fun x => (key (photo x)).map Value.ordinal := by
      rw [applyOn_eq_take, applyOn_eq_take, List.map_take, List.map_take, shown, length]
    rwa [← List.forall₂_eq_eq_eq, List.forall₂_map_left_iff, List.forall₂_map_right_iff] at places
  · rw [applyOn_eq_take, applyOn_eq_take, ordered_eq_of_perm h hr perm hk distinct]

/-- A limit that falls between two photos of one camera keeps a photo of this camera either way; by
file name there are no ties. -/
theorem applyOn_perm_reverse :
    let photo (name : String) (exif : Option Exif) : Image :=
      { filename := .ofString name, width := .zero, height := .zero, exif }
    let photos : List Image :=
      [photo "a" none, photo "b" (some { model := some (.ofString "X") }),
        photo "c" (some { model := some (.ofString "X") }), photo "d" none]
    photos.Perm photos.reverse ∧
      (∃ q clause key, ofSource (.ofString "filename != 'd' | sort exif.model desc | limit 1") =
          .ok q ∧ q.query.sort = some clause ∧ q.HasProperKeys (photos.map id) ∧
        keyReader clause.path = .ok key ∧
        List.Forall₂ (fun x y => KeyTie (key x) (key y)) (q.applyOn id photos)
          (q.applyOn id photos.reverse)) ∧
      ∃ q clause, ofSource (.ofString "all | sort filename") = .ok q ∧
        q.query.sort = some clause ∧ q.HasProperKeys (photos.map id) ∧
        q.applyOn id photos = q.applyOn id photos.reverse := by
  intro photo photos
  have perm : photos.Perm photos.reverse := photos.reverse_perm.symm
  have byModel : (ofSource (.ofString "filename != 'd' | sort exif.model desc | limit 1")).map
      (·.query.sort) =
      .ok (some ⟨[.ofString "exif", .ofString "model"], .descending, 18⟩) := by decide +kernel
  have byName : (ofSource (.ofString "all | sort filename")).map (·.query.sort) =
      .ok (some ⟨[.ofString "filename"], .ascending, 6⟩) := by decide +kernel
  have model : keyReader [.ofString "exif", .ofString "model"] =
      .ok fun photo => (photo.exif.bind (·.model)).map .string := rfl
  have name : keyReader [.ofString "filename"] =
      .ok fun photo => (some photo.filename).map .string := rfl
  refine ⟨perm, ?_, ?_⟩
  · obtain ⟨q, hq, hs⟩ := map_eq_ok.mp byModel
    have proper : q.HasProperKeys (photos.map id) := .of_strings hs model
    obtain ⟨key, reader, ties, -⟩ := applyOn_perm hq hs perm proper
    exact ⟨q, _, key, hq, hs, proper, reader, ties⟩
  · obtain ⟨q, hq, hs⟩ := map_eq_ok.mp byName
    have proper : q.HasProperKeys (photos.map id) := .of_strings hs name
    obtain ⟨key, reader, -, same⟩ := applyOn_perm hq hs perm proper
    cases name.symm.trans reader
    have names : (photos.map (·.filename)).Nodup := by decide
    refine ⟨q, _, hq, hs, proper, same fun x hx _ y hy _ tie => ?_⟩
    exact List.inj_on_of_nodup_map names hx hy (Value.ordinal_string_inj.mp (Option.some.inj tie))

end

end PhotoQuery.CompiledQuery
