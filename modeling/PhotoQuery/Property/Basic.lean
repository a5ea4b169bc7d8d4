import PhotoQuery.Reading

/-!
# Property — the properties of a photo

A query reads a photo through its properties: the fields of the record, the fields of its EXIF
block, and the raw tags by name.  `Property.reading` says how each is read, and so which kind it
has.  Whatever stands in the EXIF block is absent from a photo without one.
-/

namespace PhotoQuery

/-- The fields of a photo's record. -/
inductive ImageField where
  | filename
  | width
  | height
  | dateTaken
deriving DecidableEq

namespace ImageField

/-- The fields, in the order in which messages list them. -/
def all : List ImageField := [.filename, .width, .height, .dateTaken]

/-- The field as messages name it. -/
def name : ImageField → String
  | .filename => "filename"
  | .width => "width"
  | .height => "height"
  | .dateTaken => "dateTaken"

/-- How the field is read. -/
def reading : ImageField → Reading
  | .filename => .string fun photo => some photo.filename
  | .width => .integer fun photo => some photo.width
  | .height => .integer fun photo => some photo.height
  | .dateTaken => .date fun photo => photo.dateTaken

/-- Some photo lacks the field. -/
def optional : ImageField → Bool
  | .dateTaken => true
  | _ => false

end ImageField

/-- The fields of the EXIF block. -/
inductive ExifField where
  | make
  | model
  | lensModel
  | dateTaken
  | fNumber
  | exposureTime
  | iso
  | focalLength
  | gpsLatitude
  | gpsLongitude
deriving DecidableEq

namespace ExifField

/-- The fields, in the order in which messages list them. -/
def all : List ExifField :=
  [.make, .model, .lensModel, .dateTaken, .fNumber, .exposureTime, .iso, .focalLength,
    .gpsLatitude, .gpsLongitude]

/-- The field as messages name it. -/
def name : ExifField → String
  | .make => "make"
  | .model => "model"
  | .lensModel => "lensModel"
  | .dateTaken => "dateTaken"
  | .fNumber => "fNumber"
  | .exposureTime => "exposureTime"
  | .iso => "iso"
  | .focalLength => "focalLength"
  | .gpsLatitude => "gpsLatitude"
  | .gpsLongitude => "gpsLongitude"

/-- How the field is read. -/
def reading : ExifField → Reading
  | .make => .string fun photo => photo.exif.bind (·.make)
  | .model => .string fun photo => photo.exif.bind (·.model)
  | .lensModel => .string fun photo => photo.exif.bind (·.lensModel)
  | .dateTaken => .date fun photo => photo.exif.bind (·.dateTaken)
  | .fNumber => .decimal fun photo => photo.exif.bind (·.fNumber)
  | .exposureTime => .decimal fun photo => photo.exif.bind (·.exposureTime)
  | .iso => .integer fun photo => photo.exif.bind (·.iso)
  | .focalLength => .decimal fun photo => photo.exif.bind (·.focalLength)
  | .gpsLatitude => .decimal fun photo => photo.exif.bind (·.gpsLatitude)
  | .gpsLongitude => .decimal fun photo => photo.exif.bind (·.gpsLongitude)

end ExifField

/-- A property of a photo. -/
inductive Property where
  | image (field : ImageField)
  | exif (field : ExifField)
  | raw (tag : Text)
deriving DecidableEq

namespace Property

/-- The names that a path may start with. -/
def rootNames : List String := ImageField.all.map ImageField.name ++ ["exif"]

/-- The names that may follow `exif` in a path. -/
def exifNames : List String := ExifField.all.map ExifField.name ++ ["raw"]

/-- How the property is read.  A raw tag is found by its exact name. -/
def reading : Property → Reading
  | .image field => field.reading
  | .exif field => field.reading
  | .raw tag => .string fun photo =>
    photo.exif.bind fun block => block.raw.bind fun tags => tags.lookup tag

/-- Some photo lacks the property. -/
def optional : Property → Bool
  | .image field => field.optional
  | .exif _ | .raw _ => true

end Property

end PhotoQuery
