import PhotoQuery.Problem

/-!
# Diagnosis — errors as users see them

A diagnosis is a reason, a position and the source that the position is in.  `Diagnosis.message`
says both in one line; `Diagnosis.pointer` shows the line of the source that holds the position,
with a caret under it; and `Diagnosis.detail` puts the two together, unless the source is empty.

A newline belongs to the line that it ends.  Tabs are shown as single spaces, so the caret stands
in the column of its position, and one carriage return at the end of the line is left out.
-/

namespace PhotoQuery

/-- An error in a source, worded. -/
structure Diagnosis where
  stage : Stage
  reason : Text
  position : Nat
  source : Text
deriving DecidableEq

namespace Diagnosis

/-- The reason and the position, in one line. -/
def message (d : Diagnosis) : Text := d.reason ++ .ofString " at position " ++ .ofNat d.position

/-- The part of the line that comes before the position. -/
def lineBefore (d : Diagnosis) : Text :=
  ((d.source.take d.position).reverse.takeWhile (· ≠ unit '\n')).reverse

/-- The part of the line that comes after the position. -/
def lineAfter (d : Diagnosis) : Text := (d.source.drop d.position).takeWhile (· ≠ unit '\n')

/-- A line without one carriage return at its end. -/
def dropReturn (line : Text) : Text :=
  if line.getLast? = some (unit '\r') then line.dropLast else line

/-- The line that holds the position, as it is shown. -/
def line (d : Diagnosis) : Text :=
  (dropReturn (d.lineBefore ++ d.lineAfter)).map fun u => if u = unit '\t' then unit ' ' else u

/-- The distance from the start of the line to the position. -/
def column (d : Diagnosis) : Nat :=
  d.position - ((d.source.take d.position).length - d.lineBefore.length)

/-- The caret under the position. -/
def caret (d : Diagnosis) : Text := List.replicate d.column (unit ' ') ++ [unit '^']

/-- The line that holds the position, and the caret under it. -/
def pointer (d : Diagnosis) : Text := d.line ++ unit '\n' :: d.caret

/-- The message and, under it, the pointer; of an empty source there is nothing to show. -/
def detail (d : Diagnosis) : Text :=
  if d.source.isEmpty then d.message
  else
    .ofString "Filter error: " ++ d.message ++ .ofString "\n\n  " ++ d.line ++ .ofString "\n  " ++
      d.caret

end Diagnosis

namespace Problem

/-- The problem as a diagnosis of the source that it was found in. -/
def diagnosis? (source : Text) (p : Problem) : Option Diagnosis :=
  p.place?.map fun (stage, position) => ⟨stage, p.reason, position, source⟩

/-- The problem in full, as users see it. -/
def detail (source : Text) (p : Problem) : Text :=
  (p.diagnosis? source).elim p.reason Diagnosis.detail

end Problem

end PhotoQuery
