import PhotoQuery.Query.Basic
import PhotoQuery.Text.Blank
import PhotoQuery.Text.Case

/-!
# Gallery — options

A gallery may bring a filter, a sort override and a debug flag; the site may bring parts of a sort
configuration.  `Options.resolve` fills in what is missing.

A sort override is a field, or a field and a direction with a colon between them.  Blanks around
either do not count.  An empty field and an unknown direction leave what the configuration says.
-/

namespace PhotoQuery.Gallery

/-- How the photos of a gallery are sorted: by a field, and by another where that has no value. -/
structure SortConfig where
  field : Text
  direction : Direction
  fallback : Text
deriving DecidableEq

/-- The sort of a site that does not say how it sorts. -/
def SortConfig.standard : SortConfig :=
  ⟨.ofString "dateTaken", .descending, .ofString "filename"⟩

/-- The direction that a text names, in capital or small letters. -/
def direction? (text : Text) : Option Direction :=
  let word := text.trim.lower
  if word = .ofString "asc" then some .ascending
  else if word = .ofString "desc" then some .descending
  else none

/-- The text before the first colon, and the text after it. -/
def splitAtColon? : Text → Option (Text × Text)
  | [] => none
  | u :: rest =>
    if u = unit ':' then some ([], rest)
    else (splitAtColon? rest).map fun (before, after) => (u :: before, after)

/-- The configuration under an override. -/
def SortConfig.override (config : SortConfig) (text : Text) : SortConfig :=
  if text.trim.isEmpty then config
  else
    match splitAtColon? text with
    | none => { config with field := text.trim }
    | some (before, after) =>
      { config with
        field := if before.trim.isEmpty then config.field else before.trim
        direction := (direction? after).getD config.direction }

/-- The parts of a sort configuration that a site gives.  A part is there with its value, a text or
a direction, or it is missing; there is no part that is given but undefined. -/
structure PartialSort where
  field : Option Text := none
  direction : Option Direction := none
  fallback : Option Text := none

/-- The configuration with the standard parts where the site gives none. -/
def PartialSort.complete (parts : PartialSort) : SortConfig where
  field := parts.field.getD SortConfig.standard.field
  direction := parts.direction.getD SortConfig.standard.direction
  fallback := parts.fallback.getD SortConfig.standard.fallback

/-- What a gallery is given. -/
structure Options where
  filter : Option Text := none
  sort : Option Text := none
  imageSort : PartialSort := {}
  debug : Option Bool := none

/-- What a gallery goes by. -/
structure Resolved where
  filter : Option Text
  sort : SortConfig
  debug : Bool
deriving DecidableEq

/-- The value of the environment's debug variable that turns logging on. -/
def asksForDebug (setting : Option Text) : Bool :=
  setting = some (.ofString "true") || setting = some (.ofString "1")

/-- The options with everything filled in.  A blank filter is none, and the environment's debug
variable counts where the options do not say. -/
def Options.resolve (options : Options) (setting : Option Text) : Resolved where
  filter := options.filter.filter fun text => !text.trim.isEmpty
  sort :=
    let config := options.imageSort.complete
    options.sort.elim config config.override
  debug := options.debug.getD (asksForDebug setting)

end PhotoQuery.Gallery
