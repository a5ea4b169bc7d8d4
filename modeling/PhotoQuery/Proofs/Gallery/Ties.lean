import PhotoQuery.Proofs.Gallery.Order

/-!
# Gallery — ties

Photos with equal keys are ordered by file name, with one exception.  The order of two numbers is
the sign of their difference, and two equal infinities have none, so their comparison stops before
it comes to the names: photos whose key is the same infinity stay as they stood
(`SortConfig.sortOn_equal_infinities`), for instance photos whose f-number was read from a fraction
over zero.  `SortConfig.sortOn_ties` says that this is the only exception.

The proof gives every place a name to settle ties by (`Place.settling`): its own, or the empty one
if the key is infinite.  Key and settling name make a weak order, and it is the one that a gallery
sorts by, infinite keys included.
-/

namespace PhotoQuery.Gallery

/-! ### Places -/

namespace Place

variable {direction : Direction} {a b : Place}

/-- The name that settles ties of the place's key.  Ties of an infinite key are not settled. -/
def settling (place : Place) : Text := if KeyInfinite place.key then [] else place.name

/-- One place comes before another: by key, and where keys tie, by the settling name. -/
def Settled (direction : Direction) : Place → Place → Prop :=
  thenBy (fun a b => KeyLess direction a.key b.key) fun a b => a.settling < b.settling

/-- Key and settling name make a weak order, with infinite keys too. -/
theorem settled_weakOrder (direction : Direction) : WeakOrder (Settled direction) :=
  ((keyLess_weakOrder direction).on key).thenBy (Text.lt_weakOrder.on settling)

/-- Settling names decide between two places of one key if the names do, and the key is finite. -/
theorem settling_lt_iff (tie : KeyTie a.key b.key) :
    a.settling < b.settling ↔ ¬ KeyInfinite a.key ∧ a.name < b.name := by
  unfold settling
  by_cases infinite : KeyInfinite a.key
  · simp [infinite, tie.infinite_iff.mp infinite]
  · simp [infinite, mt tie.infinite_iff.mpr infinite]

theorem settled_iff : Settled direction a b ↔ KeyLess direction a.key b.key ∨
    KeyTie a.key b.key ∧ ¬ KeyInfinite a.key ∧ a.name < b.name := by
  rw [Settled, thenBy_keyLess_iff]
  exact or_congr_right (and_congr_right settling_lt_iff)

/-- Places with proper keys are compared by this order. -/
theorem order?_eq_gt_iff_settled (ha : ∀ v ∈ a.key, v.IsProper) (hb : ∀ v ∈ b.key, v.IsProper) :
    a.order? direction b = some .gt ↔ Settled direction b a := by
  have none := orderKeys?_eq_none_iff direction ha hb
  have gt := orderKeys?_eq_gt_iff direction ha hb
  have lt := orderKeys?_eq_lt_iff direction ha hb
  rw [order?_eq, settled_iff]
  cases order : orderKeys? direction a.key b.key with
  | none =>
    -- equal infinities: neither key is less, and the names are not asked
    obtain ⟨tie, infinite⟩ := none.mp order
    have notLess : ¬ KeyLess direction b.key a.key := (keyTie_iff.mp tie).2
    simp [notLess, tie.infinite_iff.mp infinite]
  | some o =>
    rw [order] at none gt lt
    cases o with
    | lt =>
      have less : KeyLess direction a.key b.key := lt.mp rfl
      have notLess : ¬ KeyLess direction b.key a.key := (keyLess_weakOrder direction).asymm less
      have notTie : ¬ KeyTie b.key a.key := fun tie => (keyTie_iff.mp tie).2 less
      simp [notLess, notTie]
    | eq =>
      have tie : KeyTie b.key a.key := keyTie_iff.mpr ⟨mt gt.mpr nofun, mt lt.mpr nofun⟩
      have notLess : ¬ KeyLess direction b.key a.key := mt gt.mpr nofun
      have finite : ¬ KeyInfinite b.key := fun infinite =>
        nomatch none.mpr ⟨tie.symm, tie.infinite_iff.mp infinite⟩
      simp [notLess, tie, finite, Text.compare_eq_gt]
    | gt => simp [gt.mp rfl]

end Place

/-! ### Galleries -/

/-- Of two photos of a list with equal keys, one comes before the other: by name, unless the key is
infinite; or it stands before the other, and the name does not decide. -/
inductive TieBefore (key : Image → Option Value) (photos : List Image)
    (i j : Fin photos.length) : Prop
  | name (finite : ¬ KeyInfinite (key (photos.get i)))
    (h : (photos.get i).filename.lower < (photos.get j).filename.lower)
  | position (undecided : KeyInfinite (key (photos.get i)) ∨
      (photos.get i).filename.lower = (photos.get j).filename.lower) (h : i < j)

variable {direction : Direction} {key : Image → Option Value} {photos : List Image}

/-- Of photos with equal keys, the settled order decides as `TieBefore` says. -/
theorem tieBefore_of_thenBy {place : Fin photos.length → Place} {i j : Fin photos.length}
    (hkey : ∀ i, (place i).key = key (photos.get i))
    (hname : ∀ i, (place i).name = (photos.get i).filename.lower)
    (h : thenBy (fun i j => Place.Settled direction (place i) (place j)) (· < ·) i j)
    (tie : KeyTie (key (photos.get i)) (key (photos.get j))) : TieBefore key photos i j := by
  have settled {i j} (tie : KeyTie (key (photos.get i)) (key (photos.get j))) :
      Place.Settled direction (place i) (place j) ↔ ¬ KeyInfinite (key (photos.get i)) ∧
        (photos.get i).filename.lower < (photos.get j).filename.lower := by
    have notLess := (@keyTie_iff direction _ _).mp tie
    simp only [Place.settled_iff, hkey, hname, notLess.1, tie, false_or, true_and]
  have h : Place.Settled direction (place i) (place j) ∨
      ¬ Place.Settled direction (place j) (place i) ∧ i < j := h
  rw [settled tie, settled tie.symm] at h
  rcases h with ⟨finite, less⟩ | ⟨notAfter, earlier⟩
  · exact .name finite less
  · by_cases infinite : KeyInfinite (key (photos.get i))
    · exact .position (.inl infinite) earlier
    · have notGreater : ¬ (photos.get j).filename.lower < (photos.get i).filename.lower :=
        fun greater => notAfter ⟨mt tie.infinite_iff.mpr infinite, greater⟩
      by_cases less : (photos.get i).filename.lower < (photos.get j).filename.lower
      · exact .name infinite less
      · have same := List.le_antisymm (List.not_lt.mp notGreater) (List.not_lt.mp less)
        exact .position (.inr same) earlier

/-- **Ties are broken by name, except those of infinities.**  Sorting by fields that are properties
succeeds, and gives every photo of the list once.  Photos with equal keys are in ascending order of
their names in small letters, or as they stood if these are the same too.  Photos whose key is one
and the same infinity are as they stood, whatever their names. -/
theorem SortConfig.sortOn_ties {config : SortConfig} {primary fallback : Image → Option Value}
    (hp : keyReader (segmentsOf config.field) = .ok primary)
    (hf : keyReader (segmentsOf config.fallback) = .ok fallback) (photos : List Image)
    (hk : ∀ photo ∈ photos, ∀ v ∈ keyUnder primary fallback photo, v.IsProper) :
    ∃ places : List (Fin photos.length),
      config.sortOn id photos = .ok (places.map photos.get) ∧
      places.Perm (List.finRange photos.length) ∧
      places.Pairwise fun i j =>
        KeyTie (keyUnder primary fallback (photos.get i)) (keyUnder primary fallback (photos.get j)) →
          TieBefore (keyUnder primary fallback) photos i j := by
  let place (photo : Image) : Place := placeBy primary fallback photo
  let order? (a b : Image) : Option Ordering := (place a).order? config.direction (place b)
  have hkey : ∀ i : Fin photos.length, ∀ v ∈ (place (photos.get i)).key, v.IsProper := fun i =>
    (placeBy_key primary fallback (photos.get i)).symm ▸ hk (photos.get i) (List.getElem_mem _)
  have ranks : Ranks (fun i j => order? (photos.get i) (photos.get j))
      (fun i j => Place.Settled config.direction (place (photos.get i)) (place (photos.get j)))
      (List.finRange photos.length) :=
    fun i _ j _ => Place.order?_eq_gt_iff_settled (hkey i) (hkey j)
  have sorted := pairwise_stableSort
    ((Place.settled_weakOrder config.direction).on fun i : Fin photos.length =>
      place (photos.get i)) ranks (List.pairwise_lt_finRange _)
  refine ⟨stableSort (fun i j => order? (photos.get i) (photos.get j)) (List.finRange _), ?_,
    stableSort_perm _ _, ?_⟩
  · rw [sortOn_eq hp hf, map_stableSort order?, List.map_get_finRange]
    rfl
  · exact sorted.imp (tieBefore_of_thenBy (fun i => placeBy_key primary fallback _) fun _ => rfl)

/-- By f-number, or else by file name: two photos with an infinite f-number and two with a finite
one, in the descending order of their names. -/
theorem SortConfig.sortOn_ties_fNumber :
    let config : SortConfig := ⟨.ofString "exif.fNumber", .descending, .ofString "filename"⟩
    let photo (name : String) (fNumber : Number) : Image :=
      { filename := .ofString name, width := .zero, height := .zero,
        exif := some { fNumber := some fNumber } }
    let photos : List Image :=
      [photo "D" (.infinity false), photo "c" (.infinity false), photo "B" (.ofNat 2),
        photo "a" (.ofNat 2)]
    let primary : Image → Option Value := fun photo => (photo.exif.bind (·.fNumber)).map .number
    let fallback : Image → Option Value := fun photo => some (.string photo.filename)
    keyReader (segmentsOf config.field) = .ok primary ∧
      keyReader (segmentsOf config.fallback) = .ok fallback ∧
      (∀ photo ∈ photos, ∀ v ∈ keyUnder primary fallback photo, v.IsProper) ∧
      ∃ places : List (Fin photos.length),
        config.sortOn id photos = .ok (places.map photos.get) ∧
        places.Perm (List.finRange photos.length) ∧
        places.Pairwise fun i j =>
          KeyTie (keyUnder primary fallback (photos.get i))
              (keyUnder primary fallback (photos.get j)) →
            TieBefore (keyUnder primary fallback) photos i j := by
  intro config photo photos primary fallback
  have hp : keyReader (segmentsOf config.field) = .ok primary := rfl
  have hf : keyReader (segmentsOf config.fallback) = .ok fallback := rfl
  have hk : ∀ photo ∈ photos, ∀ v ∈ keyUnder primary fallback photo, v.IsProper := by
    simp [photos, photo, primary, keyUnder, Value.IsProper, Number.infinity, Number.ofNat]
  exact ⟨hp, hf, hk, SortConfig.sortOn_ties hp hf photos hk⟩

/-- Two photos with the same infinite f-number keep their places, although the name of the second
comes first. -/
theorem SortConfig.sortOn_equal_infinities :
    let config : SortConfig := ⟨.ofString "exif.fNumber", .ascending, .ofString "filename"⟩
    let photo (name : String) : Image :=
      { filename := .ofString name, width := .zero, height := .zero,
        exif := some { fNumber := some (.infinity false) } }
    let photos : List Image := [photo "b.jpg", photo "a.jpg"]
    let primary : Image → Option Value := fun photo => (photo.exif.bind (·.fNumber)).map .number
    keyReader (segmentsOf config.field) = .ok primary ∧
      (∀ photo ∈ photos, primary photo = some (.number (.infinity false))) ∧
      (photo "a.jpg").filename.lower < (photo "b.jpg").filename.lower ∧
      config.sortOn id photos = .ok photos := by
  intro config photo photos primary
  have hp : keyReader (segmentsOf config.field) = .ok primary := rfl
  have hf : keyReader (segmentsOf config.fallback) =
      .ok (Property.reading (.image .filename)).value := rfl
  refine ⟨hp, by simp [photos, photo, primary], by decide, ?_⟩
  rw [sortOn_eq hp hf, stableSort, List.mergeSort_of_pairwise]
  decide

end PhotoQuery.Gallery
