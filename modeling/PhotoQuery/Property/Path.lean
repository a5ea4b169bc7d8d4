import PhotoQuery.Problem

/-!
# Property — paths

A path names a property by its segments: `width`, `exif.iso`, `exif.raw.Rating`.  The first two
segments are in capital or small letters, as one likes; the name of a raw tag is taken as it is.  A
path that goes on behind a property, or stops before one, is an error, and an error names no more of
the path than its first wrong segment.
-/

namespace PhotoQuery

/-- The field of the record that a segment names. -/
def ImageField.ofSegment? (segment : Text) : Option ImageField :=
  ImageField.all.find? fun field => Text.lower (.ofString field.name) == segment.lower

/-- The field of the EXIF block that a segment names. -/
def ExifField.ofSegment? (segment : Text) : Option ExifField :=
  ExifField.all.find? fun field => Text.lower (.ofString field.name) == segment.lower

namespace Property

/-- The raw tag at the end of a path that starts with the segments `exif` and `raw`. -/
def ofRawPath (exif raw : Text) : List Text → Except SemanticError Property
  | [] => .error .missingRawTag
  | [tag] => .ok (.raw tag)
  | tag :: extra :: _ => .error (.unknownProperty [exif, raw, tag, extra])

/-- The property at the end of a path that starts with the segment `exif`. -/
def ofExifPath (exif : Text) : List Text → Except SemanticError Property
  | [] => .error .missingExifField
  | segment :: rest =>
    if segment.lower = .ofString "raw" then ofRawPath exif segment rest
    else
      match ExifField.ofSegment? segment, rest with
      | none, _ => .error (.unknownExifField [exif, segment])
      | some field, [] => .ok (.exif field)
      | some _, extra :: _ => .error (.unknownProperty [exif, segment, extra])

/-- The property that a path names. -/
def ofPath : List Text → Except SemanticError Property
  | [] => .error .emptyPath
  | segment :: rest =>
    if segment.lower = .ofString "exif" then ofExifPath segment rest
    else
      match ImageField.ofSegment? segment, rest with
      | none, _ => .error (.unknownRoot segment)
      | some field, [] => .ok (.image field)
      | some _, extra :: _ => .error (.unknownProperty [segment, extra])

end Property

end PhotoQuery
