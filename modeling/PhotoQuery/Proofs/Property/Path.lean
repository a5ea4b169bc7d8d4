import PhotoQuery.Proofs.Expr.Typing
import PhotoQuery.Property.Path

/-!
# Property — kinds of paths

A path is resolved to the property that it names (`Property.Names`), and so if and only if it has a
kind, and then to a property of that kind.  Fields are found by name, and no name is that of two
fields, or of a field and of what `exif` or `raw` leads to.
-/

namespace PhotoQuery

open Text

/-! ### Fields by name -/

/-- Every field of a photo is in the list that names are looked up in. -/
theorem ImageField.mem_all (field : ImageField) : field ∈ ImageField.all := by
  cases field <;> decide

theorem ExifField.mem_all (field : ExifField) : field ∈ ExifField.all := by
  cases field <;> decide

/-- A segment finds the field that it names.  As no two fields share a name, the order of the list
does not matter. -/
theorem ImageField.ofSegment?_eq_some {segment : Text} {field : ImageField} :
    ofSegment? segment = some field ↔ segment.IsNamed field.name := by
  have distinct : ∀ f ∈ all, ∀ f' ∈ all,
      lower (ofString f.name) = lower (ofString f'.name) → f = f' := by decide
  exact find?_key_eq_some distinct (fun _ => beq_iff_eq.trans eq_comm) field.mem_all

theorem ExifField.ofSegment?_eq_some {segment : Text} {field : ExifField} :
    ofSegment? segment = some field ↔ segment.IsNamed field.name := by
  have distinct : ∀ f ∈ all, ∀ f' ∈ all,
      lower (ofString f.name) = lower (ofString f'.name) → f = f' := by decide
  exact find?_key_eq_some distinct (fun _ => beq_iff_eq.trans eq_comm) field.mem_all

/-! ### Kinds -/

/-- A field of a photo is read as a value of its kind. -/
theorem ImageField.reading_kind (field : ImageField) : field.reading.kind = field.kind := by
  cases field <;> rfl

theorem ExifField.reading_kind (field : ExifField) : field.reading.kind = field.kind := by
  cases field <;> rfl

theorem isNamed_exif {text : Text} : text.IsNamed "exif" ↔ text.lower = ofString "exif" :=
  isNamed_iff (by decide)

theorem isNamed_raw {text : Text} : text.IsNamed "raw" ↔ text.lower = ofString "raw" :=
  isNamed_iff (by decide)

namespace Property

theorem ofPath_exif {root : Text} (h : root.lower = ofString "exif") (rest : List Text) :
    ofPath (root :: rest) = ofExifPath root rest := if_pos h

/-- A path from any other root is a field of the photo, alone. -/
theorem ofPath_image {root : Text} (h : root.lower ≠ ofString "exif") (rest : List Text) :
    ofPath (root :: rest) = match ImageField.ofSegment? root, rest with
      | none, _ => .error (.unknownRoot root)
      | some field, [] => .ok (.image field)
      | some _, extra :: _ => .error (.unknownProperty [root, extra]) := if_neg h

theorem ofExifPath_raw {segment : Text} (h : segment.lower = ofString "raw") (root : Text)
    (rest : List Text) : ofExifPath root (segment :: rest) = ofRawPath root segment rest := if_pos h

/-- Behind `exif`, any other segment is a field, alone. -/
theorem ofExifPath_field {segment : Text} (h : segment.lower ≠ ofString "raw") (root : Text)
    (rest : List Text) :
    ofExifPath root (segment :: rest) = match ExifField.ofSegment? segment, rest with
      | none, _ => .error (.unknownExifField [root, segment])
      | some field, [] => .ok (.exif field)
      | some _, extra :: _ => .error (.unknownProperty [root, segment, extra]) := if_neg h

/-- The path names the property. -/
inductive Names : List Text → Property → Prop where
  | image {segment : Text} (field : ImageField) (h : segment.IsNamed field.name) :
      Names [segment] (.image field)
  | exif {root segment : Text} (field : ExifField) (hr : root.IsNamed "exif")
      (h : segment.IsNamed field.name) : Names [root, segment] (.exif field)
  | raw {root segment : Text} (tag : Text) (hr : root.IsNamed "exif") (h : segment.IsNamed "raw") :
      Names [root, segment, tag] (.raw tag)

theorem names_of_ofRawPath {root segment : Text} {rest : List Text} {p : Property}
    (hr : root.IsNamed "exif") (hs : segment.IsNamed "raw")
    (h : ofRawPath root segment rest = .ok p) : Names (root :: segment :: rest) p := by
  match rest with
  | [] => cases h
  | [tag] =>
    cases h
    exact .raw tag hr hs
  | _ :: _ :: _ => cases h

/-- A path from `exif` that resolves names what it resolves to. -/
theorem names_of_ofExifPath {root : Text} {rest : List Text} {p : Property}
    (hr : root.IsNamed "exif") (h : ofExifPath root rest = .ok p) : Names (root :: rest) p := by
  cases rest with
  | nil => cases h
  | cons segment rest =>
    by_cases raw : segment.lower = ofString "raw"
    · rw [ofExifPath_raw raw] at h
      exact names_of_ofRawPath hr (isNamed_raw.mpr raw) h
    · rw [ofExifPath_field raw] at h
      split at h
      · cases h
      · rename_i field found
        cases h
        exact .exif field hr (ExifField.ofSegment?_eq_some.mp found)
      · cases h

theorem names_of_ofPath {path : List Text} {p : Property} (h : ofPath path = .ok p) :
    Names path p := by
  cases path with
  | nil => cases h
  | cons root rest =>
    by_cases exif : root.lower = ofString "exif"
    · rw [ofPath_exif exif] at h
      exact names_of_ofExifPath (isNamed_exif.mpr exif) h
    · rw [ofPath_image exif] at h
      split at h
      · cases h
      · rename_i field found
        cases h
        exact .image field (ImageField.ofSegment?_eq_some.mp found)
      · cases h

theorem ofPath_of_names {path : List Text} {p : Property} (h : Names path p) :
    ofPath path = .ok p := by
  cases h with
  | @image segment field h =>
    have notExif : segment.lower ≠ ofString "exif" := by
      rw [IsNamed] at h
      rw [h]
      cases field <;> decide
    rw [ofPath_image notExif, ImageField.ofSegment?_eq_some.mpr h]
  | @exif root segment field hr h =>
    have notRaw : segment.lower ≠ ofString "raw" := by
      rw [IsNamed] at h
      rw [h]
      cases field <;> decide
    rw [ofPath_exif (isNamed_exif.mp hr), ofExifPath_field notRaw,
      ExifField.ofSegment?_eq_some.mpr h]
  | raw tag hr h =>
    rw [ofPath_exif (isNamed_exif.mp hr), ofExifPath_raw (isNamed_raw.mp h)]
    rfl

/-- A path is resolved to the property that it names. -/
theorem ofPath_eq_ok {path : List Text} {p : Property} : ofPath path = .ok p ↔ Names path p :=
  ⟨names_of_ofPath, ofPath_of_names⟩

/-- A path that names a property has the kind that the property is read as. -/
theorem Names.pathKind {path : List Text} {p : Property} (h : Names path p) :
    PathKind path p.reading.kind := by
  cases h with
  | image field h =>
    have kind := field.reading_kind
    exact kind ▸ .image field h
  | exif field hr h =>
    have kind := field.reading_kind
    exact kind ▸ .exif field hr h
  | raw tag hr h => exact .raw tag hr h

/-- A path that has a kind resolves, to a property that is read as that kind. -/
theorem ofPath_of_pathKind {path : List Text} {k : Kind} (h : PathKind path k) :
    ∃ p, ofPath path = .ok p ∧ p.reading.kind = k := by
  cases h with
  | image field h => exact ⟨.image field, ofPath_eq_ok.mpr (.image field h), field.reading_kind⟩
  | exif field hr h =>
    exact ⟨.exif field, ofPath_eq_ok.mpr (.exif field hr h), field.reading_kind⟩
  | raw tag hr h => exact ⟨.raw tag, ofPath_eq_ok.mpr (.raw tag hr h), rfl⟩

end Property

end PhotoQuery
