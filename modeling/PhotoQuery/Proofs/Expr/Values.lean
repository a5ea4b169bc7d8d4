import PhotoQuery.Proofs.Expr.Compiling

/-!
# Expr — values of compiled expressions

A compiled expression says of itself which kind its values have and whether some photo has none.
Both are true of every photo (`Expr.value_of_compile`): the values are of the kind, an expression
that is not optional has one for every photo, and an optional one has none for a photo without a
date and an EXIF block.  So the flag tells exactly whether a value can be absent, and an expression
of truth values, whatever stands in it, is true or false of every photo.

The flag is set by hand in each rule of compilation.  `Compiled.Faithful` is what each rule keeps.
-/

namespace PhotoQuery

open Text

/-- The value is of the kind.  Both kinds of numbers have the numbers as their values, and the kind
of `null` has no value. -/
inductive Value.HasKind : Value → Kind → Prop where
  | string (text : Text) : HasKind (.string text) .string
  | integer (number : Number) : HasKind (.number number) .integer
  | decimal (number : Number) : HasKind (.number number) .decimal
  | boolean (truth : Bool) : HasKind (.boolean truth) .boolean
  | date (date : Timestamp) : HasKind (.date date) .date

/-- The photo has no date and no EXIF block. -/
def Image.IsBare (photo : Image) : Prop := photo.dateTaken = none ∧ photo.exif = none

/-- The value of a reading is of its kind. -/
theorem Reading.hasKind_value {r : Reading} {photo : Image} {v : Value}
    (h : r.value photo = some v) : v.HasKind r.kind := by
  cases r with
  | null => cases h
  | string read =>
    obtain ⟨text, -, rfl⟩ := Option.map_eq_some_iff.mp h
    exact .string text
  | integer read =>
    obtain ⟨number, -, rfl⟩ := Option.map_eq_some_iff.mp h
    exact .integer number
  | decimal read =>
    obtain ⟨number, -, rfl⟩ := Option.map_eq_some_iff.mp h
    exact .decimal number
  | boolean read =>
    obtain ⟨truth, -, rfl⟩ := Option.map_eq_some_iff.mp h
    exact .boolean truth
  | date read =>
    obtain ⟨date, -, rfl⟩ := Option.map_eq_some_iff.mp h
    exact .date date

@[simp] theorem Reading.value_test (holds : Image → Bool) (photo : Image) :
    (Reading.test holds).value photo = some (.boolean (holds photo)) := rfl

/-! ### Presence -/

namespace Compiled

/-- The optional flag is right about every photo, and is not set on truth values. -/
structure Faithful (c : Compiled) : Prop where
  present : c.optional = false → ∀ photo, c.value photo ≠ none
  absent : c.optional = true → ∀ photo : Image, photo.IsBare → c.value photo = none
  boolean : c.kind = .boolean → c.optional = false

/-- A test is never absent. -/
theorem Faithful.test (holds : Image → Bool) (position : Nat) :
    Faithful ⟨.test holds, false, position⟩ where
  present _ photo := by simp [value]
  absent := nofun
  boolean _ := rfl

/-- The flag of a literal is right: only `null` is optional, and it is always absent. -/
theorem Faithful.constant (constant : Constant) (position : Nat) :
    Faithful ⟨constant.reading, constant.optional, position⟩ := by
  cases constant with
  | null => exact ⟨nofun, fun _ _ _ => rfl, nofun⟩
  | _ => exact ⟨fun _ _ => nofun, nofun, fun _ => rfl⟩

/-- The flag of a photo's field is right: only its date is optional, and a bare photo has none. -/
theorem Faithful.imageField (field : ImageField) (position : Nat) :
    Faithful ⟨field.reading, field.optional, position⟩ := by
  cases field with
  | dateTaken =>
    refine ⟨nofun, fun _ photo bare => ?_, nofun⟩
    simp [value, Reading.value, ImageField.reading, bare.1]
  | _ => exact ⟨fun _ _ => nofun, nofun, fun _ => rfl⟩

/-- The fields of the camera's data are optional, and a bare photo has none of them. -/
theorem Faithful.exifField (field : ExifField) (position : Nat) :
    Faithful ⟨field.reading, true, position⟩ where
  present := nofun
  absent _ photo bare := by
    cases field <;> simp [value, Reading.value, ExifField.reading, bare.2]
  boolean h := by cases field <;> cases h

theorem Faithful.property (property : Property) (position : Nat) :
    Faithful ⟨property.reading, property.optional, position⟩ := by
  cases property with
  | image field => exact .imageField field position
  | exif field => exact .exifField field position
  | raw tag =>
    refine ⟨nofun, fun _ photo bare => ?_, nofun⟩
    simp [value, Reading.value, Property.reading, bare.2]

/-- What is made of a value is absent exactly where the value is, so the flag passes through. -/
theorem Faithful.map {c : Compiled} (h : c.Faithful) {reading : Reading} (position : Nat)
    (hk : reading.kind ≠ .boolean)
    (hv : ∀ photo, reading.value photo = none ↔ c.value photo = none) :
    Faithful ⟨reading, c.optional, position⟩ where
  present required photo none := h.present required photo ((hv photo).mp none)
  absent optional photo bare := (hv photo).mpr (h.absent optional photo bare)
  boolean kind := absurd kind hk

end Compiled

namespace Expr

/-- Every rule of compilation sets the flag right. -/
theorem CompilesTo.faithful {e : Expr} {c : Compiled} (h : CompilesTo e c) : c.Faithful := by
  induction h with
  | constant value position => exact .constant value position
  | property position h => exact .property _ position
  | negation position _ _ => exact .test _ position
  | logical connective position _ _ _ _ => exact .test _ position
  | comparison position _ _ hc _ _ =>
    obtain ⟨holds, rfl⟩ := hc.exists_test
    exact .test holds position
  | datePart part position _ _ ih =>
    exact ih.map position nofun fun photo => by simp [Compiled.value, Reading.value]
  | stringTest test position _ _ _ _ _ => exact .test _ position
  | caseForm form position _ _ ih =>
    exact ih.map position nofun fun photo => by simp [Compiled.value, Reading.value]

/-- **Values are of the kind, and the optional flag is exact.**  Whatever a compiled tree gives for
a photo is of the kind that it was compiled to.  A tree that is not optional gives a value for every
photo; an optional one gives none for a photo without a date and an EXIF block.  A tree of truth
values is true or false of every photo. -/
theorem value_of_compile {e : Expr} {c : Compiled} (h : e.compile = .ok c) :
    (∀ photo v, c.value photo = some v → v.HasKind c.kind) ∧
      (c.optional = false → ∀ photo, c.value photo ≠ none) ∧
      (c.optional = true → ∀ photo : Image, photo.IsBare → c.value photo = none) ∧
      (c.kind = .boolean → ∀ photo, ∃ truth, c.value photo = some (.boolean truth)) := by
  have faithful := (compilesTo_of_compile h).faithful
  refine ⟨fun photo v => Reading.hasKind_value, faithful.present, faithful.absent, ?_⟩
  intro kind photo
  obtain ⟨v, hv⟩ := Option.ne_none_iff_exists'.mp
    (faithful.present (faithful.boolean kind) photo)
  have typed : v.HasKind c.kind := Reading.hasKind_value hv
  rw [kind] at typed
  cases typed with
  | boolean truth => exact ⟨truth, hv⟩

/-- `Year(exif.DateTaken)` is an integer that a photo may lack. -/
theorem value_of_compile_year :
    ∃ c, compile (.call (ofString "Year") 0 [.property [ofString "exif", ofString "DateTaken"] 5]) =
        .ok c ∧ c.kind = .integer ∧ c.optional = true ∧
      (∀ photo v, c.value photo = some v → v.HasKind c.kind) ∧
      (c.optional = false → ∀ photo, c.value photo ≠ none) ∧
      (c.optional = true → ∀ photo : Image, photo.IsBare → c.value photo = none) ∧
      (c.kind = .boolean → ∀ photo, ∃ truth, c.value photo = some (.boolean truth)) := by
  have h : compile (.call (ofString "Year") 0
      [.property [ofString "exif", ofString "DateTaken"] 5]) =
      .ok ⟨.integer fun photo => (photo.exif.bind (·.dateTaken)).map (DatePart.read .year), true,
        0⟩ := rfl
  exact ⟨_, h, rfl, rfl, value_of_compile h⟩

end Expr

end PhotoQuery
