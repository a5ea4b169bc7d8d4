import PhotoQuery.Gallery.Order
import PhotoQuery.Proofs.Outcome
import PhotoQuery.Proofs.Sort.Key

/-!
# Gallery — the order of photos

A gallery is in the order of `Gallery.Before`: by key in the configured direction, then by file
name in small letters and ascending, then as the photos stood.  `SortConfig.sortOn_before` says
that sorting gives the photos of a list in this order, each as often as it stands there.

The keys have to be finite.  Of two keys without an order, such as two equal infinities, a gallery
leaves the photos as they stand, whatever their names.
-/

namespace PhotoQuery

/-- Texts are in a weak order, by their units. -/
theorem Text.lt_weakOrder : WeakOrder fun s t : Text => s < t where
  asymm := List.lt_asymm
  split {s u} t h := by
    by_cases first : s < t
    · exact .inl first
    · exact .inr (List.lt_of_le_of_lt (List.not_lt.mp first) h)

namespace Gallery

open Outcome

/-! ### Places -/

/-- A photo's key under two fields: by the first, or by the second if that is absent or empty. -/
def keyUnder (primary fallback : Image → Option Value) (photo : Image) : Option Value :=
  match primary photo with
  | none => fallback photo
  | some (.string []) => fallback photo
  | some v => some v

theorem placeBy_key (primary fallback : Image → Option Value) (photo : Image) :
    (placeBy primary fallback photo).key = keyUnder primary fallback photo := by
  show keyOr (primary photo) (fallback photo) = _
  unfold keyUnder
  split
  next absent => rw [keyOr, if_pos (.inl absent)]
  next empty => rw [keyOr, if_pos (.inr empty)]
  next v full found =>
    have kept : ¬ (primary photo = none ∨ primary photo = some (.string [])) := by
      rw [found]
      rintro (h | h)
      · cases h
      · exact full (Option.some.inj h)
    rw [keyOr, if_neg kept, found]

namespace Place

variable {direction : Direction} {a b : Place}

/-- One place comes before another: by key, and where keys tie, by name. -/
def Less (direction : Direction) : Place → Place → Prop :=
  thenBy (fun a b => KeyLess direction a.key b.key) fun a b => a.name < b.name

theorem less_iff : Less direction a b ↔
    KeyLess direction a.key b.key ∨ KeyTie a.key b.key ∧ a.name < b.name := thenBy_keyLess_iff

/-- Key and name make a weak order. -/
theorem less_weakOrder (direction : Direction) : WeakOrder (Less direction) :=
  ((keyLess_weakOrder direction).on key).thenBy (Text.lt_weakOrder.on name)

/-- Places that this order leaves undecided have equal keys and the same name. -/
theorem eq_of_not_less (hab : ¬ Less direction a b) (hba : ¬ Less direction b a) :
    KeyTie a.key b.key ∧ a.name = b.name := by
  rw [less_iff, not_or] at hab hba
  have tie : KeyTie a.key b.key := keyTie_iff.mpr ⟨hab.1, hba.1⟩
  have notLess : ¬ a.name < b.name := fun h => hab.2 ⟨tie, h⟩
  have notGreater : ¬ b.name < a.name := fun h => hba.2 ⟨tie.symm, h⟩
  exact ⟨tie, List.le_antisymm (List.not_lt.mp notGreater) (List.not_lt.mp notLess)⟩

/-- Places are compared by their keys, and then by their names. -/
theorem order?_eq (direction : Direction) (a b : Place) :
    a.order? direction b =
      (orderKeys? direction a.key b.key).map fun o => o.then (compare a.name b.name) := by
  unfold order? orderKeys?
  split <;> simp_all [Function.comp_def]

/-- Places with finite keys are compared by this order. -/
theorem order?_eq_gt_iff (ha : ∀ v ∈ a.key, v.IsFinite) (hb : ∀ v ∈ b.key, v.IsFinite) :
    a.order? direction b = some .gt ↔ Less direction b a := by
  have asymm {x y : Option Value} := @(keyLess_weakOrder direction).asymm x y
  rw [order?_eq, less_iff]
  rcases orderKeys?_cases direction ha hb with ⟨ho, less⟩ | ⟨ho, tie⟩ | ⟨ho, less⟩
  · have notTie : ¬ KeyTie b.key a.key := fun tie => (keyTie_iff.mp tie).2 less
    simp [ho, asymm less, notTie]
  · have notLess : ¬ KeyLess direction b.key a.key := (keyTie_iff.mp tie).2
    simp [ho, notLess, KeyTie, Text.compare_eq_gt, tie.symm]
  · simp [ho, less]

end Place

/-! ### Galleries -/

variable {direction : Direction} {key : Image → Option Value} {photos : List Image}

/-- One photo of a list comes before another in a gallery: its key is before the other's, which in
both directions it is if the other has none; or the keys tie, and its name is before the other's; or
both are equal, and it stands before the other. -/
inductive Before (direction : Direction) (key : Image → Option Value) (photos : List Image)
    (i j : Fin photos.length) : Prop
  | key (h : KeyLess direction (key (photos.get i)) (key (photos.get j)))
  | name (tie : KeyTie (key (photos.get i)) (key (photos.get j)))
    (h : (photos.get i).filename.lower < (photos.get j).filename.lower)
  | position (tie : KeyTie (key (photos.get i)) (key (photos.get j)))
    (same : (photos.get i).filename.lower = (photos.get j).filename.lower) (h : i < j)

/-- Photos whose places are in order, or else their positions, come before each other in the
gallery. -/
theorem before_of_thenBy {place : Fin photos.length → Place} {i j : Fin photos.length}
    (hkey : ∀ i, (place i).key = key (photos.get i))
    (hname : ∀ i, (place i).name = (photos.get i).filename.lower)
    (h : thenBy (fun i j => Place.Less direction (place i) (place j)) (· < ·) i j) :
    Before direction key photos i j := by
  by_cases less : Place.Less direction (place i) (place j)
  · rw [Place.less_iff, hkey, hkey, hname, hname] at less
    rcases less with less | ⟨tie, less⟩
    · exact .key less
    · exact .name tie less
  · obtain ⟨notAfter, earlier⟩ := h.resolve_left less
    obtain ⟨tie, same⟩ := Place.eq_of_not_less less notAfter
    rw [hkey, hkey] at tie
    rw [hname, hname] at same
    exact .position tie same earlier

/-- By fields that are properties, a gallery sorts its photos by their places. -/
theorem SortConfig.sortOn_eq {α : Type} {config : SortConfig}
    {primary fallback : Image → Option Value}
    (hp : keyReader (segmentsOf config.field) = .ok primary)
    (hf : keyReader (segmentsOf config.fallback) = .ok fallback) (photo : α → Image)
    (items : List α) :
    config.sortOn photo items = .ok (stableSort (fun x y =>
      (placeBy primary fallback (photo x)).order? config.direction
        (placeBy primary fallback (photo y))) items) := by
  simp only [sortOn, placing, fieldReader, hp, hf, mapError_ok, ok_bind, map_ok]

/-- **A gallery is in order.**  Sorting by fields that are properties succeeds, and gives every
photo of the list once, in the order of `Before`. -/
theorem SortConfig.sortOn_before {config : SortConfig} {primary fallback : Image → Option Value}
    (hp : keyReader (segmentsOf config.field) = .ok primary)
    (hf : keyReader (segmentsOf config.fallback) = .ok fallback) (photos : List Image)
    (hk : ∀ photo ∈ photos, ∀ v ∈ keyUnder primary fallback photo, v.IsFinite) :
    ∃ places : List (Fin photos.length),
      config.sortOn id photos = .ok (places.map photos.get) ∧
      places.Perm (List.finRange photos.length) ∧
      places.Pairwise (Before config.direction (keyUnder primary fallback) photos) := by
  let place (photo : Image) : Place := placeBy primary fallback photo
  let order? (a b : Image) : Option Ordering := (place a).order? config.direction (place b)
  have hkey : ∀ i : Fin photos.length, ∀ v ∈ (place (photos.get i)).key, v.IsFinite := fun i =>
    (placeBy_key primary fallback (photos.get i)).symm ▸ hk (photos.get i) (List.getElem_mem _)
  refine ⟨stableSort (fun i j => order? (photos.get i) (photos.get j)) (List.finRange _), ?_,
    stableSort_perm _ _, ?_⟩
  · rw [sortOn_eq hp hf, map_stableSort order?, List.map_get_finRange]
    rfl
  · have ranks : Ranks (fun i j => order? (photos.get i) (photos.get j))
        (fun i j => Place.Less config.direction (place (photos.get i)) (place (photos.get j)))
        (List.finRange photos.length) :=
      fun i _ j _ => Place.order?_eq_gt_iff (hkey i) (hkey j)
    have sorted := pairwise_stableSort
      ((Place.less_weakOrder config.direction).on fun i : Fin photos.length => place (photos.get i))
      ranks (List.pairwise_lt_finRange _)
    exact sorted.imp (before_of_thenBy (fun i => placeBy_key primary fallback _) fun _ => rfl)

/-- By camera, or else by date: one photo has neither, one an empty camera and a date, one a camera,
and one a date alone. -/
theorem SortConfig.sortOn_before_model :
    let config : SortConfig := ⟨.ofString "exif.model", .descending, .ofString "dateTaken"⟩
    let photo (name : String) (dateTaken : Option Timestamp) (model : Option Text) : Image :=
      { filename := .ofString name, width := .zero, height := .zero, dateTaken,
        exif := some { model } }
    let photos : List Image :=
      [photo "b" none none, photo "c" (some (.instant 5)) (some []), photo "d" none (some [97]),
        photo "A" (some (.instant 5)) none]
    let primary : Image → Option Value := fun photo => (photo.exif.bind (·.model)).map .string
    let fallback : Image → Option Value := fun photo => photo.dateTaken.map .date
    keyReader (segmentsOf config.field) = .ok primary ∧
      keyReader (segmentsOf config.fallback) = .ok fallback ∧
      (∀ photo ∈ photos, ∀ v ∈ keyUnder primary fallback photo, v.IsFinite) ∧
      ∃ places : List (Fin photos.length),
        config.sortOn id photos = .ok (places.map photos.get) ∧
        places.Perm (List.finRange photos.length) ∧
        places.Pairwise (Before config.direction (keyUnder primary fallback) photos) := by
  intro config photo photos primary fallback
  have hp : keyReader (segmentsOf config.field) = .ok primary := rfl
  have hf : keyReader (segmentsOf config.fallback) = .ok fallback := rfl
  have hk : ∀ photo ∈ photos, ∀ v ∈ keyUnder primary fallback photo, v.IsFinite := by
    simp [photos, photo, primary, fallback, keyUnder, Value.IsFinite, Value.IsProper]
  exact ⟨hp, hf, hk, SortConfig.sortOn_before hp hf photos hk⟩

end Gallery

end PhotoQuery
