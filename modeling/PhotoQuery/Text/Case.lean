import PhotoQuery.Text.CaseTable
import PhotoQuery.Text.SigmaTable

/-!
# Text — case mapping

`Text.lower` and `Text.upper` are the full case mappings of Unicode, independent of a language.
Most code points map to one code point; a sharp s becomes two capitals, a dotted capital I becomes
a small i and a combining dot.  One rule looks at the neighbours: a capital sigma becomes a final
sigma at the end of a word (`isFinalSigma`).  ASCII letters are mapped without the tables.
-/

namespace PhotoQuery.Text

/-- The point of a capital letter from A to Z. -/
def isAsciiUpper (p : Nat) : Bool := 0x41 ≤ p && p ≤ 0x5A

/-- The point of a small letter from a to z. -/
def isAsciiLower (p : Nat) : Bool := 0x61 ≤ p && p ≤ 0x7A

/-- The point under the first range that covers it; a point outside the ranges maps to itself. -/
def mapByRanges (ranges : List CaseRange) (p : Nat) : Nat :=
  match ranges.find? (·.covers p) with
  | some r => (p + r.delta).toNat
  | none => p

/-- The point lies in one of the ranges. -/
def inRanges (ranges : List (Nat × Nat)) (p : Nat) : Bool :=
  ranges.any fun (first, last) => first ≤ p && p ≤ last

/-- The small form of a point, wherever it stands. -/
def lowerPoint (p : Nat) : List Nat :=
  if p < 0x80 then [if isAsciiUpper p then p + 0x20 else p]
  else if p = 0x130 then [0x69, 0x307]
  else [mapByRanges lowerRanges p]

/-- The capital form of a point. -/
def upperPoint (p : Nat) : List Nat :=
  if p < 0x80 then [if isAsciiLower p then p - 0x20 else p]
  else (upperSequences.lookup p).getD [mapByRanges upperRanges p]

/-- The first point that is not ignored for case is a letter that has one. -/
def meetsCased (ps : List Nat) : Bool :=
  match ps.dropWhile (inRanges caseIgnoredRanges) with
  | p :: _ => inRanges casedRanges p
  | [] => false

/-- A sigma is final after a letter and not before one.  The points before it come nearest first. -/
def isFinalSigma (before after : List Nat) : Bool := meetsCased before && !meetsCased after

/-- The small forms of points that follow the points of `before`, nearest first. -/
def lowerPoints (before : List Nat) : List Nat → List Nat
  | [] => []
  | p :: rest =>
    (if p = 0x3A3 then [if isFinalSigma before rest then 0x3C2 else 0x3C3] else lowerPoint p) ++
      lowerPoints (p :: before) rest

/-- The text in small letters. -/
def lower (text : Text) : Text := ofPoints (lowerPoints [] text.points)

/-- The text in capital letters. -/
def upper (text : Text) : Text := ofPoints (text.points.flatMap upperPoint)

end PhotoQuery.Text
