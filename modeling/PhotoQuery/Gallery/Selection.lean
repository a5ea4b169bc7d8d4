import PhotoQuery.Gallery.Order
import PhotoQuery.Query.Compiled

/-!
# Gallery — selection

With a filter, a gallery shows photos of the whole site; without one, it shows the photos of its own
folder.  A filter that sorts keeps its order, and every other selection is put in the gallery's own.

A selection takes notes of what it does.  The notes do not depend on the debug flag; the flag only
decides whether they are logged.
-/

namespace PhotoQuery.Gallery

/-- Why a gallery shows nothing: an error, and the text that it is in. -/
structure Failure where
  problem : Problem
  source : Text
deriving DecidableEq

/-- The failure of a path that is no property. -/
def PathError.failure (e : PathError) : Failure := ⟨.semantic ⟨0, e.cause⟩, pathText e.path⟩

/-- What a selection takes note of. -/
inductive Note where
  | noFilter (photos : Nat) (config : SortConfig)
  | filter (source : Text)
  | invalidFilter (detail : Text)
  | matched (selected photos : Nat)
  | orderKept (path : List Text)
deriving DecidableEq

/-- The note in words. -/
def Note.words : Note → Text
  | .noFilter photos config =>
    .ofString "No filter, sorting " ++ .ofNat photos ++ .ofString " folder image(s) by " ++
      config.field ++ .ofString " " ++ .ofString config.direction.word
  | .filter source => .ofString "Filter: " ++ source
  | .invalidFilter detail => .ofString "Invalid filter:\n" ++ detail
  | .matched selected photos =>
    .ofString "Filter matched " ++ .ofNat selected ++ .ofString " of " ++ .ofNat photos ++
      .ofString " image(s)"
  | .orderKept path => .ofString "Keeping order from filter sort on " ++ pathText path

/-- The note as it is logged. -/
def Note.line (note : Note) : Text := .ofString "[gallery-query] " ++ note.words

/-- The photos that a gallery shows, and the notes of how they were found. -/
structure Selection (α : Type) where
  result : Except Failure (List α)
  notes : List Note

/-- The lines that a selection logs. -/
def Selection.log {α : Type} (selection : Selection α) (debug : Bool) : List Text :=
  if debug then selection.notes.map Note.line else []

/-- The items in the gallery's own order. -/
def Resolved.sortOn {α : Type} (options : Resolved) (photo : α → Image) (items : List α) :
    Except Failure (List α) :=
  (options.sort.sortOn photo items).mapError PathError.failure

/-- The items that a filter selects, in its own order or in the gallery's. -/
def Resolved.selectBy {α : Type} (options : Resolved) (photo : α → Image) (filter : Text)
    (site : List α) : Selection α :=
  match CompiledQuery.ofSource filter with
  | .error problem =>
    ⟨.error ⟨problem, filter⟩, [.filter filter, .invalidFilter (problem.detail filter)]⟩
  | .ok query =>
    let selected := query.applyOn photo site
    let notes := [.filter filter, .matched selected.length site.length]
    match query.query.sort with
    | some clause => ⟨.ok selected, notes ++ [.orderKept clause.path]⟩
    | none => ⟨options.sortOn photo selected, notes⟩

/-- The items that a gallery shows. -/
def Resolved.select {α : Type} (options : Resolved) (photo : α → Image) (site folder : List α) :
    Selection α :=
  match options.filter with
  | none => ⟨options.sortOn photo folder, [.noFilter folder.length options.sort]⟩
  | some filter => options.selectBy photo filter site

/-- The items that a gallery with these options shows, and the lines that finding them logs. -/
def Options.select {α : Type} (options : Options) (setting : Option Text) (photo : α → Image)
    (site folder : List α) : Except Failure (List α) × List Text :=
  let resolved := options.resolve setting
  let selection := resolved.select photo site folder
  (selection.result, selection.log resolved.debug)

end PhotoQuery.Gallery
