import PhotoQuery.Gallery.Options
import PhotoQuery.Sort.Stable

/-!
# Gallery — order

The photos of a gallery are ordered by the configured field, or by the fallback field where that is
absent or empty.  Photos with neither come last in both directions.  Photos with equal keys are
ordered by their file names, in small letters and ascending in both directions.

Keys without an order between them stop the comparison: such photos stay as they stand, whatever
their names.
-/

namespace PhotoQuery.Gallery

/-- The segments of a path that is written with dots; empty ones do not count. -/
def segmentsOf (field : Text) : List Text := (field.splitOn (unit '.')).filter (!·.isEmpty)

/-- A photo's key and its name in small letters. -/
structure Place where
  key : Option Value
  name : Text

/-- The order of two photos in a gallery, if their keys have one. -/
def Place.order? (direction : Direction) (a b : Place) : Option Ordering :=
  match a.key, b.key with
  | some x, some y => (x.order? y).map fun o => (direction.apply o).then (compare a.name b.name)
  | some _, none => some .lt
  | none, some _ => some .gt
  | none, none => some (compare a.name b.name)

/-- The first key, unless it is absent or empty; then the second. -/
def keyOr (first second : Option Value) : Option Value :=
  if first = none ∨ first = some (.string []) then second else first

/-- The place of a photo, by the two fields of a configuration. -/
def placeBy (primary fallback : Image → Option Value) (photo : Image) : Place :=
  ⟨keyOr (primary photo) (fallback photo), photo.filename.lower⟩

/-- An error in a path, and the path.  It stands at the start of its own text. -/
structure PathError where
  cause : SemanticError
  path : List Text

/-- The keys under the field, which may be no property. -/
def fieldReader (field : Text) : Except PathError (Image → Option Value) :=
  let path := segmentsOf field
  (keyReader path).mapError fun cause => ⟨cause, path⟩

/-- The places that photos have under a configuration. -/
def SortConfig.placing (config : SortConfig) : Except PathError (Image → Place) := do
  let primary ← fieldReader config.field
  let fallback ← fieldReader config.fallback
  .ok (placeBy primary fallback)

/-- The items in the order that a configuration gives the photos in them. -/
def SortConfig.sortOn {α : Type} (config : SortConfig) (photo : α → Image) (items : List α) :
    Except PathError (List α) :=
  config.placing.map fun place =>
    stableSort (fun a b => (place (photo a)).order? config.direction (place (photo b))) items

end PhotoQuery.Gallery
