import PhotoQuery.Proofs.Gallery.Selection

/-!
# Gallery — what a gallery fails for

A gallery fails for its options, and for nothing else.  Either its filter is refused, or the gallery
sorts by itself and one of the two paths that it sorts by names no property; the paths are looked up
before a photo is seen.  `Options.Fails` says which failures there are, without mention of a photo,
and `Options.select_eq_error` that these are the failures of a selection.

A gallery that leaves sorting to its filter never looks at its own paths, so wrong ones do no harm.
-/

namespace PhotoQuery.Gallery

open Outcome

/-! ### Paths -/

/-- The configuration sorts by a path that is no property.  The fallback counts only where the field
is a property. -/
inductive SortConfig.Refuses (config : SortConfig) : PathError → Prop where
  | field {cause : SemanticError}
      (unknown : Property.ofPath (segmentsOf config.field) = .error cause) :
      Refuses config ⟨cause, segmentsOf config.field⟩
  | fallback {property : Property} {cause : SemanticError}
      (known : Property.ofPath (segmentsOf config.field) = .ok property)
      (unknown : Property.ofPath (segmentsOf config.fallback) = .error cause) :
      Refuses config ⟨cause, segmentsOf config.fallback⟩

/-- A field that is no property has no key, for what its path is refused for. -/
theorem fieldReader_of_error {field : Text} {cause : SemanticError}
    (h : Property.ofPath (segmentsOf field) = .error cause) :
    fieldReader field = .error ⟨cause, segmentsOf field⟩ := by
  rw [fieldReader, keyReader, h, map_error, mapError_error]

theorem fieldReader_of_ok {field : Text} {property : Property}
    (h : Property.ofPath (segmentsOf field) = .ok property) :
    fieldReader field = .ok property.reading.value := by
  rw [fieldReader, keyReader, h, map_ok, mapError_ok]

/-- A configuration is refused exactly for a path that it sorts by and that is no property. -/
theorem SortConfig.placing_eq_error_iff {config : SortConfig} {e : PathError} :
    config.placing = .error e ↔ config.Refuses e := by
  constructor
  · intro h
    rw [placing] at h
    cases hp : Property.ofPath (segmentsOf config.field) with
    | error cause =>
      rw [fieldReader_of_error hp] at h
      cases h
      exact .field hp
    | ok property =>
      cases hf : Property.ofPath (segmentsOf config.fallback) with
      | error cause =>
        rw [fieldReader_of_ok hp, fieldReader_of_error hf] at h
        cases h
        exact .fallback hp hf
      | ok other =>
        rw [fieldReader_of_ok hp, fieldReader_of_ok hf] at h
        cases h
  · rintro (unknown | ⟨known, unknown⟩)
    · rw [placing, fieldReader_of_error unknown, error_bind]
    · rw [placing, fieldReader_of_ok known, ok_bind, fieldReader_of_error unknown, error_bind]

/-! ### Options -/

/-- The gallery puts its photos in an order of its own: it has no filter, or one that does not
sort. -/
inductive Options.SortsItself (options : Options) : Prop where
  | unfiltered (h : options.Unfiltered)
  | unsorted {filter : Text} {q : CompiledQuery} (given : options.filter = some filter)
      (compiled : CompiledQuery.ofSource filter = .ok q) (unsorted : q.query.sort = none)

/-- The options are bad, and this is the failure. -/
inductive Options.Fails (options : Options) (setting : Option Text) : Failure → Prop where
  | filter {filter : Text} {problem : Problem} (given : options.filter = some filter)
      (shows : filter.trim ≠ []) (refused : CompiledQuery.ofSource filter = .error problem) :
      Fails options setting ⟨problem, filter⟩
  | path {e : PathError} (sorts : options.SortsItself)
      (refused : (options.resolve setting).sort.Refuses e) :
      Fails options setting ⟨.semantic ⟨0, e.cause⟩, pathText e.path⟩

section

variable {α : Type} {photo : α → Image} {site folder items : List α} {options : Options}
  {setting : Option Text} {filter : Text} {failure : Failure}

/-- A gallery that sorts fails for the path that its configuration is refused for. -/
theorem Resolved.sortOn_eq_error {options : Resolved} :
    options.sortOn photo items = .error failure ↔
      ∃ e, options.sort.Refuses e ∧ e.failure = failure := by
  rw [sortOn, mapError_eq_error, SortConfig.sortOn]
  simp only [← SortConfig.placing_eq_error_iff]
  cases options.sort.placing with
  | error e => simp
  | ok place => simp

/-- A filter that is given fails a gallery if it is refused, or if it leaves sorting to the gallery
and this fails. -/
theorem Resolved.selectBy_eq_error {options : Resolved} :
    (options.selectBy photo filter site).result = .error failure ↔
      (∃ problem, CompiledQuery.ofSource filter = .error problem ∧ ⟨problem, filter⟩ = failure) ∨
        ∃ q, CompiledQuery.ofSource filter = .ok q ∧ q.query.sort = none ∧
          ∃ e, options.sort.Refuses e ∧ e.failure = failure := by
  unfold selectBy
  cases CompiledQuery.ofSource filter with
  | error problem => simp
  | ok q =>
    cases hs : q.query.sort with
    | none => simp [hs, Resolved.sortOn_eq_error]
    | some clause => simp [hs]

theorem Options.fails_unfiltered_iff (h : options.Unfiltered) :
    options.Fails setting failure ↔
      ∃ e, (options.resolve setting).sort.Refuses e ∧ e.failure = failure := by
  constructor
  · rintro (⟨given, shows, -⟩ | ⟨-, refused⟩)
    · exact absurd (h _ given) shows
    · exact ⟨_, refused, rfl⟩
  · rintro ⟨e, refused, rfl⟩
    exact .path (.unfiltered h) refused

/-- Options with a filter fail for the filter, or for a path if the filter leaves sorting to
them. -/
theorem Options.fails_filtered_iff (h : options.filter = some filter) (shows : filter.trim ≠ []) :
    options.Fails setting failure ↔
      (∃ problem, CompiledQuery.ofSource filter = .error problem ∧ ⟨problem, filter⟩ = failure) ∨
        ∃ q, CompiledQuery.ofSource filter = .ok q ∧ q.query.sort = none ∧
          ∃ e, (options.resolve setting).sort.Refuses e ∧ e.failure = failure := by
  constructor
  · rintro (⟨given, -, refused⟩ | ⟨sorts, refused⟩)
    · obtain rfl := Option.some.inj (h.symm.trans given)
      exact .inl ⟨_, refused, rfl⟩
    · obtain unfiltered | ⟨given, compiled, unsorted⟩ := sorts
      · exact absurd (unfiltered _ h) shows
      · obtain rfl := Option.some.inj (h.symm.trans given)
        exact .inr ⟨_, compiled, unsorted, _, refused, rfl⟩
  · rintro (⟨problem, refused, rfl⟩ | ⟨q, compiled, unsorted, e, refused, rfl⟩)
    · exact .filter h shows refused
    · exact .path (.unsorted h compiled unsorted) refused

/-- The failures of a selection are those of its options. -/
theorem Options.select_eq_error :
    (options.select setting photo site folder).1 = .error failure ↔
      options.Fails setting failure := by
  rw [select, Resolved.select]
  by_cases h : options.Unfiltered
  · rw [resolve_unfiltered h, fails_unfiltered_iff h, ← Resolved.sortOn_eq_error]
  · obtain ⟨filter, given, shows⟩ := exists_filter h
    rw [resolve_filtered given shows, fails_filtered_iff given shows, ← Resolved.selectBy_eq_error]

end

/-- **A gallery fails for bad options only**, never for its photos.  It fails for a filter that is
refused, or for a path that it sorts by and that is no property, and what it fails for is that.  So
with the same options any two selections fail for the same, or neither of them does. -/
theorem Options.select_fails_iff (options : Options) (setting : Option Text) :
    (∀ {α : Type} (photo : α → Image) (site folder : List α) (failure : Failure),
      (options.select setting photo site folder).1 = .error failure ↔
        options.Fails setting failure) ∧
    ∀ {α β : Type} (photo : α → Image) (site folder : List α) (photo' : β → Image)
      (site' folder' : List β),
      Agree Eq (fun _ _ => True) (options.select setting photo site folder).1
        (options.select setting photo' site' folder').1 := by
  refine ⟨fun _ _ _ _ => select_eq_error, fun photo site folder photo' site' folder' => ?_⟩
  exact .of_error_iff fun failure => select_eq_error.trans select_eq_error.symm

/-- The standard field is a property; without a photo, the gallery still fails for its fallback. -/
example : (Options.select { imageSort := { fallback := some (.ofString "exif.nme") } } none id []
      []).1 =
    .error ⟨.semantic ⟨0, .unknownExifField [.ofString "exif", .ofString "nme"]⟩,
      .ofString "exif.nme"⟩ := by
  rfl

end PhotoQuery.Gallery
