import Mathlib.Data.List.Nodup
import PhotoQuery.Proofs.Gallery.Order

/-!
# Gallery — the order in which photos are read

Photos come from a folder in whatever order it lists them.  As long as no two of them have the same
file name up to case, a gallery does not show this order: permuted lists are sorted into the same
list (`SortConfig.sortOn_eq_of_perm`).

Distinct names suffice because the name is asked last.  Places that no rule puts before each other
have the same name (`Place.eq_of_not_less`), so no two photos are left as they stood.
-/

namespace PhotoQuery.Gallery

/-- **A gallery does not depend on the order in which its photos are read.**  Lists of photos that
are permutations of each other, without two photos of the same name, are sorted by fields that are
properties into the same list. -/
theorem SortConfig.sortOn_eq_of_perm {α : Type} {config : SortConfig}
    {primary fallback : Image → Option Value}
    (hp : keyReader (segmentsOf config.field) = .ok primary)
    (hf : keyReader (segmentsOf config.fallback) = .ok fallback) {photo : α → Image}
    {items items' : List α} (perm : items.Perm items')
    (names : (items.map fun x => (photo x).filename.lower).Nodup)
    (hk : ∀ x ∈ items, ∀ v ∈ keyUnder primary fallback (photo x), v.IsFinite) :
    ∃ shown, config.sortOn photo items = .ok shown ∧ config.sortOn photo items' = .ok shown := by
  let place (x : α) : Place := placeBy primary fallback (photo x)
  have hkey : ∀ x ∈ items, ∀ v ∈ (place x).key, v.IsFinite := fun x hx =>
    (placeBy_key primary fallback (photo x)).symm ▸ hk x hx
  have ranks : Ranks (fun x y => (place x).order? config.direction (place y))
      (fun x y => Place.Less config.direction (place x) (place y)) items :=
    fun x hx y hy => Place.order?_eq_gt_iff (hkey x hx) (hkey y hy)
  have decided : ∀ x ∈ items, ∀ y ∈ items, ¬ Place.Less config.direction (place x) (place y) →
      ¬ Place.Less config.direction (place y) (place x) → x = y := by
    intro x hx y hy hxy hyx
    have same : (photo x).filename.lower = (photo y).filename.lower :=
      (Place.eq_of_not_less hxy hyx).2
    exact List.inj_on_of_nodup_map names hx hy same
  have sorted := stableSort_eq_of_perm ((Place.less_weakOrder config.direction).on place) ranks perm
    decided
  refine ⟨_, sortOn_eq hp hf photo items, ?_⟩
  rw [sortOn_eq hp hf, sorted]

/-- By camera, or else by date: two photos of one camera, one with a date alone, and one with
neither, read forwards and backwards. -/
theorem SortConfig.sortOn_eq_of_perm_reverse :
    let config : SortConfig := ⟨.ofString "exif.model", .descending, .ofString "dateTaken"⟩
    let photo (name : String) (dateTaken : Option Timestamp) (model : Option Text) : Image :=
      { filename := .ofString name, width := .zero, height := .zero, dateTaken,
        exif := some { model } }
    let photos : List Image :=
      [photo "b" none none, photo "D" none (some [97]), photo "c" none (some [97]),
        photo "A" (some (.instant 5)) (some [])]
    let primary : Image → Option Value := fun photo => (photo.exif.bind (·.model)).map .string
    let fallback : Image → Option Value := fun photo => photo.dateTaken.map .date
    keyReader (segmentsOf config.field) = .ok primary ∧
      keyReader (segmentsOf config.fallback) = .ok fallback ∧
      photos.Perm photos.reverse ∧ (photos.map fun photo => photo.filename.lower).Nodup ∧
      (∀ photo ∈ photos, ∀ v ∈ keyUnder primary fallback photo, v.IsFinite) ∧
      ∃ shown, config.sortOn id photos = .ok shown ∧ config.sortOn id photos.reverse = .ok shown := by
  intro config photo photos primary fallback
  have hp : keyReader (segmentsOf config.field) = .ok primary := rfl
  have hf : keyReader (segmentsOf config.fallback) = .ok fallback := rfl
  have perm : photos.Perm photos.reverse := photos.reverse_perm.symm
  have names : (photos.map fun photo => photo.filename.lower).Nodup := by decide
  have hk : ∀ photo ∈ photos, ∀ v ∈ keyUnder primary fallback photo, v.IsFinite := by
    simp [photos, photo, primary, fallback, keyUnder, Value.IsFinite, Value.IsProper]
  exact ⟨hp, hf, perm, names, hk, SortConfig.sortOn_eq_of_perm hp hf perm names hk⟩

end PhotoQuery.Gallery
