import PhotoQuery.Proofs.Gallery.Order
import PhotoQuery.Proofs.Gallery.Selection
import PhotoQuery.Proofs.Query.Sorting

/-!
# Gallery — two ways to sort

A gallery can sort by an override, `path:direction`, and a query by a clause, `sort path direction`.
The two are read by different means, and break ties by different means: a gallery by file name, a
query by the place in the list.  Where the photos stand in the order of their names already, both
give the same list (`Options.select_eq_applyOn`).

The keys have to be there, and not empty, because a gallery goes on to its fallback field where they
are not.  Nothing else is asked of them: a pair without an order is left as it stands by both.
-/

namespace PhotoQuery

open Text Outcome

/-! ### Orders -/

/-- An order that is opposite the other way round puts no two items behind each other. -/
theorem ne_gt_of_swap {o o' : Option Ordering} (h : o' = o.map Ordering.swap)
    (gt : o = some .gt) : o' ≠ some .gt := by
  rw [h, gt]
  simp

namespace Gallery

/-- The order of two places is reversed with them, in either direction. -/
theorem Place.order?_swap (direction : Direction) (a b : Place) :
    b.order? direction a = (a.order? direction b).map Ordering.swap := by
  rw [order?_eq, order?_eq, orderKeys?_swap direction a.key b.key, Option.map_map, Option.map_map]
  refine congrArg (Option.map · _) (funext fun o => ?_)
  simp only [Function.comp_apply, Ordering.swap_then]
  exact congrArg o.swap.then Std.OrientedOrd.eq_swap

/-- Names that ascend put no place behind a later one. -/
theorem Place.order?_eq_gt_of_le {direction : Direction} {a b : Place} (h : a.name ≤ b.name) :
    a.order? direction b = some .gt ↔ orderKeys? direction a.key b.key = some .gt := by
  have names : compare a.name b.name ≠ .gt := fun gt => List.not_lt.mpr h (Text.compare_eq_gt.mp gt)
  rw [order?_eq]
  cases orderKeys? direction a.key b.key with
  | none => simp
  | some o => cases o <;> simp [names]

/-! ### Overrides -/

/-- `path:direction`. -/
def overrideText (path : List Text) (direction : Direction) : Text :=
  pathText path ++ unit ':' :: ofString direction.word

section

variable {path : List Text}

/-- The units of a written path are parts of names, and dots. -/
theorem isPart_of_mem_pathText (hn : ∀ n ∈ path, n.IsName) {u : CodeUnit}
    (hu : u ∈ pathText path) : u = unit '.' ∨ isWordPart u :=
  (mem_pathText hu).imp_right fun ⟨name, hname, h⟩ => (hn name hname).1.parts u h

/-- A written path has no blank in it, so trimming leaves it as it is. -/
theorem not_isBlank_of_mem_pathText (hn : ∀ n ∈ path, n.IsName) :
    ∀ u ∈ pathText path, isBlank u = false := by
  intro u hu
  rcases isPart_of_mem_pathText hn hu with rfl | part
  · decide
  · exact not_isBlank_of_isWordPart part

/-- A written path shows. -/
theorem pathText_ne_nil (hp : path ≠ []) (hn : ∀ n ∈ path, n.IsName) : pathText path ≠ [] := by
  obtain ⟨first, names, rfl⟩ := List.exists_cons_of_ne_nil hp
  obtain ⟨u, rest, rfl, -⟩ := (hn first List.mem_cons_self).1
  cases names with
  | nil =>
    rw [pathText_singleton]
    exact List.cons_ne_nil _ _
  | cons second names =>
    rw [pathText_cons_cons]
    exact List.cons_ne_nil _ _

/-- A text is cut at its first colon. -/
theorem splitAtColon?_append {before : Text} (h : ∀ u ∈ before, u ≠ unit ':') (after : Text) :
    splitAtColon? (before ++ unit ':' :: after) = some (before, after) := by
  induction before with
  | nil => rfl
  | cons u before ih =>
    rw [List.forall_mem_cons] at h
    rw [List.cons_append, splitAtColon?, if_neg h.1, ih h.2]
    rfl

/-- The segments of a written path are those of the path. -/
theorem segmentsOf_pathText (hp : path ≠ []) (hn : ∀ n ∈ path, n.IsName) :
    segmentsOf (pathText path) = path := by
  have dotless : ∀ n ∈ path, unit '.' ∉ n := fun n h dot =>
    absurd ((hn n h).1.parts _ dot) (by decide)
  have split : (pathText path).splitOn (unit '.') = path :=
    List.splitOn_intercalate (unit '.') dotless hp
  rw [segmentsOf, split, List.filter_eq_self]
  intro n h
  obtain ⟨u, rest, rfl, -⟩ := (hn n h).1
  rfl

/-- A direction is read from its own word. -/
theorem direction?_word (direction : Direction) :
    direction? (ofString direction.word) = some direction := by
  cases direction <;> decide

/-- An override puts its path and its direction into the configuration. -/
theorem SortConfig.override_overrideText (hp : path ≠ []) (hn : ∀ n ∈ path, n.IsName)
    (direction : Direction) (config : SortConfig) :
    config.override (overrideText path direction) =
      ⟨pathText path, direction, config.fallback⟩ := by
  have path' : (pathText path).trim = pathText path := trim_eq_self (not_isBlank_of_mem_pathText hn)
  have word : (unit ':' :: ofString direction.word).all fun u => !isBlank u := by
    cases direction <;> decide
  have whole : (overrideText path direction).trim = overrideText path direction := by
    refine trim_eq_self ?_
    rw [overrideText, List.forall_mem_append]
    exact ⟨not_isBlank_of_mem_pathText hn, by simpa using word⟩
  have colonless : ∀ u ∈ pathText path, u ≠ unit ':' := by
    rintro u hu rfl
    rcases isPart_of_mem_pathText hn hu with dot | part
    · revert dot
      decide
    · revert part
      decide
  have full : (overrideText path direction).isEmpty = false := by simp [overrideText]
  have field : (pathText path).isEmpty = false :=
    List.isEmpty_eq_false_iff.mpr (pathText_ne_nil hp hn)
  have parts : splitAtColon? (overrideText path direction) =
      some (pathText path, ofString direction.word) := splitAtColon?_append colonless _
  simp only [override, whole, full, parts, path', field, direction?_word, Bool.false_eq_true,
    if_false, Option.getD_some]

end

/-! ### Agreement -/

section

variable {α : Type} {photo : α → Image} {items : List α} {key fallback : Image → Option Value}

/-- A gallery goes by the key of a photo that has one which is not the empty string. -/
theorem placeBy_key_of_some {image : Image} {v : Value} (h : key image = some v)
    (full : v ≠ .string []) : (placeBy key fallback image).key = key image := by
  have kept : ¬ (key image = none ∨ key image = some (.string [])) := by
    rw [h]
    simp [full]
  exact if_neg kept

/-- Where the photos stand in the order of their names, a gallery sorts like a query. -/
theorem stableSort_placeBy (direction : Direction)
    (names : items.Pairwise fun x y => (photo x).filename.lower ≤ (photo y).filename.lower)
    (keys : ∀ x ∈ items, ∃ v, key (photo x) = some v ∧ v ≠ .string []) :
    stableSort (fun x y => (placeBy key fallback (photo x)).order? direction
      (placeBy key fallback (photo y))) items = Ranking.sortOn ⟨direction, key⟩ photo items := by
  refine stableSort_eq_of_pairwise (fun x y => ne_gt_of_swap (Place.order?_swap direction _ _))
    (fun x y => ne_gt_of_swap (orderKeys?_swap direction _ _)) ?_
  refine names.imp_of_mem fun {x y} hx hy le => ?_
  obtain ⟨v, hv, fullLeft⟩ := keys x hx
  obtain ⟨w, hw, fullRight⟩ := keys y hy
  rw [Place.order?_eq_gt_of_le le, placeBy_key_of_some hv fullLeft,
    placeBy_key_of_some hw fullRight]
  rfl

/-- **A gallery and a query sort alike.**  Over photos in the order of their file names that all
have a key which is not the empty string, a gallery that shows `all` and is sorted by
`path:direction` shows what the query `all | sort path direction` gives. -/
theorem Options.select_eq_applyOn {path : List Text} {property : Property}
    (hp : Property.ofPath path = .ok property) (hn : ∀ n ∈ path, n.IsName) (direction : Direction)
    (names : items.Pairwise fun x y => (photo x).filename.lower ≤ (photo y).filename.lower)
    (keys : ∀ x ∈ items, ∃ v, property.reading.value (photo x) = some v ∧ v ≠ .string [])
    (setting : Option Text) (folder : List α) :
    let options : Options :=
      { filter := some (ofString "all"), sort := some (overrideText path direction) }
    ∃ q, CompiledQuery.ofSource (sortSource path direction) = .ok q ∧
      (options.select setting photo items folder).1 = .ok (q.applyOn photo items) := by
  intro options
  have nonempty : path ≠ [] := by
    rintro rfl
    cases hp
  obtain ⟨all, compiledAll, unsorted, selected⟩ := CompiledQuery.ofSource_all
  obtain ⟨q, compiled, applied⟩ := CompiledQuery.ofSource_sortSource hp hn direction
  refine ⟨q, compiled, ?_⟩
  -- the override leaves nothing of the standard configuration but its fallback
  let config : SortConfig := ⟨pathText path, direction, SortConfig.standard.fallback⟩
  have sort : (options.resolve setting).sort = config :=
    SortConfig.override_overrideText nonempty hn direction _
  have primary : keyReader (segmentsOf config.field) = .ok property.reading.value := by
    rw [segmentsOf_pathText nonempty hn, keyReader, hp, map_ok]
  have fallback : keyReader (segmentsOf config.fallback) =
      .ok (Property.reading (.image .filename)).value := rfl
  have filter : options.filter = some (ofString "all") := rfl
  refine (select_filtered_eq_ok filter (by decide)).mpr ⟨all, compiledAll, .inr ⟨unsorted, ?_⟩⟩
  rw [selected, sort, SortConfig.sortOn_eq primary fallback]
  exact congrArg Except.ok ((stableSort_placeBy direction names keys).trans (applied _ _).symm)

/-- Three photos by ISO speed, two of which have the same file name up to case. -/
theorem Options.select_eq_applyOn_iso :
    let path := [ofString "exif", ofString "ISO"]
    let image (name : String) (iso : Nat) : Image :=
      ⟨ofString name, .zero, .zero, none, some { iso := some (.ofNat iso) }⟩
    let items := [image "a" 200, image "B" 100, image "b" 200]
    let options : Options :=
      { filter := some (ofString "all"), sort := some (overrideText path .descending) }
    Property.ofPath path = .ok (.exif .iso) ∧ (∀ n ∈ path, n.IsName) ∧
      (items.Pairwise fun x y => x.filename.lower ≤ y.filename.lower) ∧
      (∀ x ∈ items, ∃ v, (Property.exif .iso).reading.value x = some v ∧ v ≠ .string []) ∧
      ∃ q, CompiledQuery.ofSource (sortSource path .descending) = .ok q ∧
        (options.select none id items []).1 = .ok (q.applyOn id items) := by
  intro path image items options
  have hp : Property.ofPath path = .ok (.exif .iso) := by decide
  have hn : ∀ n ∈ path, n.IsName := by decide
  have names : items.Pairwise fun x y => x.filename.lower ≤ y.filename.lower := by decide
  have keys : ∀ x ∈ items, ∃ v, (Property.exif .iso).reading.value x = some v ∧ v ≠ .string [] := by
    simp [items, image, Property.reading, ExifField.reading, Reading.value]
  exact ⟨hp, hn, names, keys, Options.select_eq_applyOn hp hn .descending names keys none []⟩

end

end Gallery

end PhotoQuery
