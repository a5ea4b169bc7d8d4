import PhotoQuery.Gallery.Selection
import PhotoQuery.Proofs.Outcome
import PhotoQuery.Proofs.Sort.Stable

/-!
# Gallery — what a gallery shows

The filter alone decides which photos a gallery shows, and the sort options at most put them in
another order (`Options.select_decided`).  With a filter they are the photos that its query selects
from the site, cut off at the query's limit before the gallery sorts; the folder does not matter.
Without one they are those of the folder, and the site does not matter.

A query with a sort clause has the last word on the order.
-/

namespace PhotoQuery.Gallery

open Outcome

variable {α : Type} {photo : α → Image} {site folder shown shown' : List α}

/-! ### Sorting -/

/-- Sorting a gallery leaves nothing out and adds nothing. -/
theorem SortConfig.sortOn_perm {config : SortConfig} {items : List α}
    (h : config.sortOn photo items = .ok shown) : shown.Perm items := by
  obtain ⟨place, -, rfl⟩ := map_eq_ok.mp h
  exact stableSort_perm _ _

theorem Resolved.sortOn_eq_ok {options : Resolved} {items : List α} :
    options.sortOn photo items = .ok shown ↔ options.sort.sortOn photo items = .ok shown :=
  mapError_eq_ok

/-! ### Filters -/

/-- The options have no filter, or a blank one. -/
def Options.Unfiltered (options : Options) : Prop := ∀ filter ∈ options.filter, filter.trim = []

variable {options : Options} {setting : Option Text} {filter : Text}

theorem Options.exists_filter (h : ¬ options.Unfiltered) :
    ∃ filter, options.filter = some filter ∧ filter.trim ≠ [] := by
  simpa [Unfiltered] using h

theorem Options.resolve_unfiltered (h : options.Unfiltered) (setting : Option Text) :
    (options.resolve setting).filter = none := by
  refine Option.filter_eq_none_iff.mpr fun filter hf => ?_
  simp [h filter hf]

/-- A filter that shows is resolved to itself, not trimmed. -/
theorem Options.resolve_filtered (h : options.filter = some filter) (shows : filter.trim ≠ [])
    (setting : Option Text) : (options.resolve setting).filter = some filter := by
  refine Option.filter_eq_some_iff.mpr ⟨h, ?_⟩
  simp [shows]

/-- A filter selects by its query, and sorts by the gallery unless the query sorts. -/
theorem Resolved.selectBy_eq_ok {options : Resolved} :
    (options.selectBy photo filter site).result = .ok shown ↔
      ∃ q, CompiledQuery.ofSource filter = .ok q ∧
        ((q.query.sort ≠ none ∧ shown = q.applyOn photo site) ∨
          (q.query.sort = none ∧
            options.sort.sortOn photo (q.applyOn photo site) = .ok shown)) := by
  unfold selectBy
  cases CompiledQuery.ofSource filter with
  | error problem => simp
  | ok q =>
    cases hs : q.query.sort with
    | none => simp [hs, Resolved.sortOn_eq_ok]
    | some clause => simp [hs, eq_comm]

/-- With a filter, a gallery shows what its query selects from the site, sorted by the query or else
by the gallery. -/
theorem Options.select_filtered_eq_ok (h : options.filter = some filter)
    (shows : filter.trim ≠ []) :
    (options.select setting photo site folder).1 = .ok shown ↔
      ∃ q, CompiledQuery.ofSource filter = .ok q ∧
        ((q.query.sort ≠ none ∧ shown = q.applyOn photo site) ∨
          (q.query.sort = none ∧
            (options.resolve setting).sort.sortOn photo (q.applyOn photo site) = .ok shown)) := by
  rw [← Resolved.selectBy_eq_ok, select, Resolved.select, resolve_filtered h shows]

/-- Without a filter, a gallery shows its folder, sorted. -/
theorem Options.select_unfiltered_eq_ok (h : options.Unfiltered) :
    (options.select setting photo site folder).1 = .ok shown ↔
      (options.resolve setting).sort.sortOn photo folder = .ok shown := by
  rw [← Resolved.sortOn_eq_ok, select, Resolved.select, resolve_unfiltered h]

/-! ### The statement -/

/-- The gallery shows what the query of its filter selects from the site: in the query's order if it
sorts, whatever the gallery says about sorting, and in the gallery's order otherwise. -/
structure Options.ShowsQuery (options : Options) (setting : Option Text) (photo : α → Image)
    (site folder shown : List α) (q : CompiledQuery) : Prop where
  perm : shown.Perm (q.applyOn photo site)
  anyFolder : ∀ folder', (options.select setting photo site folder').1 = .ok shown
  sorted : q.query.sort ≠ none → shown = q.applyOn photo site ∧ ∀ sort imageSort,
    (Options.select { options with sort := sort, imageSort := imageSort } setting photo site
      folder).1 = .ok shown
  unsorted : q.query.sort = none →
    (options.resolve setting).sort.sortOn photo (q.applyOn photo site) = .ok shown

/-- The gallery shows its folder, in its own order. -/
structure Options.ShowsFolder (options : Options) (setting : Option Text) (photo : α → Image)
    (folder shown : List α) : Prop where
  sorted : (options.resolve setting).sort.sortOn photo folder = .ok shown
  anySite : ∀ site', (options.select setting photo site' folder).1 = .ok shown

/-- A gallery with a filter that shows anything shows its query. -/
theorem Options.showsQuery_of_select (h : (options.select setting photo site folder).1 = .ok shown)
    (hf : options.filter = some filter) (shows : filter.trim ≠ []) :
    ∃ q, CompiledQuery.ofSource filter = .ok q ∧
      options.ShowsQuery setting photo site folder shown q := by
  obtain ⟨q, compiled, order⟩ := (select_filtered_eq_ok hf shows).mp h
  refine ⟨q, compiled, ?_, fun folder' => ?_, fun sorts => ?_, fun unsorted => ?_⟩
  · rcases order with ⟨-, rfl⟩ | ⟨-, sorted⟩
    · exact .refl _
    · exact SortConfig.sortOn_perm sorted
  · exact (select_filtered_eq_ok hf shows).mpr ⟨q, compiled, order⟩
  · obtain ⟨-, same⟩ := order.resolve_right fun unsorted => sorts unsorted.1
    refine ⟨same, fun sort imageSort => ?_⟩
    let options' : Options := { options with sort := sort, imageSort := imageSort }
    have hf' : options'.filter = some filter := hf
    exact (select_filtered_eq_ok hf' shows).mpr ⟨q, compiled, .inl ⟨sorts, same⟩⟩
  · exact (order.resolve_left fun sorts => sorts.1 unsorted).2

/-- A gallery without a filter that shows anything shows its folder. -/
theorem Options.showsFolder_of_select
    (h : (options.select setting photo site folder).1 = .ok shown) (hf : options.Unfiltered) :
    options.ShowsFolder setting photo folder shown :=
  have sorted := (select_unfiltered_eq_ok hf).mp h
  ⟨sorted, fun _ => (select_unfiltered_eq_ok hf).mpr sorted⟩

/-- Sort options only put the photos of a gallery in another order. -/
theorem Options.perm_of_select (h : (options.select setting photo site folder).1 = .ok shown)
    {sort : Option Text} {imageSort : PartialSort}
    (h' : (Options.select { options with sort := sort, imageSort := imageSort } setting photo site
      folder).1 = .ok shown') : shown.Perm shown' := by
  by_cases hf : options.Unfiltered
  · exact (SortConfig.sortOn_perm (showsFolder_of_select h hf).sorted).trans
      (SortConfig.sortOn_perm (showsFolder_of_select h' hf).sorted).symm
  · obtain ⟨filter, hf, shows⟩ := exists_filter hf
    obtain ⟨q, compiled, query⟩ := showsQuery_of_select h hf shows
    obtain ⟨q', compiled', query'⟩ := showsQuery_of_select h' hf shows
    obtain rfl := Except.ok.inj (compiled.symm.trans compiled')
    exact query.perm.trans query'.perm.symm

/-- **The filter decides, and sorting permutes.**  A gallery that shows anything shows the photos
that its filter's query selects from the site, or without a filter those of its folder, and which
they are does not depend on how the gallery sorts. -/
theorem Options.select_decided (h : (options.select setting photo site folder).1 = .ok shown) :
    (∀ filter, options.filter = some filter → filter.trim ≠ [] →
      ∃ q, CompiledQuery.ofSource filter = .ok q ∧
        options.ShowsQuery setting photo site folder shown q) ∧
    (options.Unfiltered → options.ShowsFolder setting photo folder shown) ∧
    ∀ sort imageSort shown', (Options.select { options with sort := sort, imageSort := imageSort }
      setting photo site folder).1 = .ok shown' → shown.Perm shown' :=
  ⟨fun _ => showsQuery_of_select h, showsFolder_of_select h, fun _ _ _ => perm_of_select h⟩

/-- `all | limit 1` keeps the photo that stands first, and not the one that is first by name. -/
theorem Options.select_decided_limit :
    let options : Options :=
      { filter := some (.ofString "all | limit 1"), sort := some (.ofString "filename:asc") }
    let photo (name : String) : Image := ⟨.ofString name, .zero, .zero, none, none⟩
    let site := ["b", "a"]
    let shown := ["b"]
    (options.select none photo site []).1 = .ok shown ∧
    (∀ filter, options.filter = some filter → filter.trim ≠ [] →
      ∃ q, CompiledQuery.ofSource filter = .ok q ∧
        options.ShowsQuery none photo site [] shown q) ∧
    (options.Unfiltered → options.ShowsFolder none photo [] shown) ∧
    ∀ sort imageSort shown', (Options.select { options with sort := sort, imageSort := imageSort }
      none photo site []).1 = .ok shown' → shown.Perm shown' := by
  intro options photo site shown
  have h : (options.select none photo site []).1 = .ok shown := by decide +kernel
  exact ⟨h, select_decided h⟩

end PhotoQuery.Gallery
