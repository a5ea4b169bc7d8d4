import PhotoQuery.Text.Basic
import PhotoQuery.Timestamp

/-!
# Image — photo records

What a query knows about a photo: the file, its size, when it was taken, and the EXIF block of the
file, if it has one.  Every EXIF field may be missing.  `Exif.raw` holds the tags of the file as
they were read, by name.
-/

namespace PhotoQuery

/-- The EXIF block of a photo. -/
structure Exif where
  make : Option Text := none
  model : Option Text := none
  lensModel : Option Text := none
  dateTaken : Option Timestamp := none
  fNumber : Option Number := none
  exposureTime : Option Number := none
  iso : Option Number := none
  focalLength : Option Number := none
  gpsLatitude : Option Number := none
  gpsLongitude : Option Number := none
  raw : Option (List (Text × Text)) := none

/-- A photo as a query sees it. -/
structure Image where
  filename : Text
  width : Number
  height : Number
  dateTaken : Option Timestamp := none
  exif : Option Exif := none

end PhotoQuery
