/-!
# Text — code units

A text is a list of UTF-16 code units.  Lengths, positions and the order of texts all count
these units: a character above U+FFFF takes two of them, its high and its low surrogate, and a
surrogate may also stand alone.

`Text.points` groups a text into code points and `Text.ofPoints` writes code points out again;
case mapping works on code points, everything else on units.
-/

namespace PhotoQuery

/-- One UTF-16 code unit. -/
abbrev CodeUnit := UInt16

/-- A text, as its UTF-16 code units. -/
abbrev Text := List CodeUnit

/-- The unit of a character at or below U+FFFF. -/
def unit (c : Char) : CodeUnit := UInt16.ofNat c.toNat

namespace Text

/-! ### Code points -/

/-- A code point as units: itself, or a pair of surrogates above U+FFFF. -/
def ofPoint (p : Nat) : Text :=
  if p < 0x10000 then [UInt16.ofNat p]
  else
    [UInt16.ofNat (0xD800 + (p - 0x10000) / 0x400), UInt16.ofNat (0xDC00 + (p - 0x10000) % 0x400)]

/-- The text of a list of code points. -/
def ofPoints (ps : List Nat) : Text := ps.flatMap ofPoint

/-- The text of a string of characters. -/
def ofString (s : String) : Text := ofPoints (s.toList.map Char.toNat)

/-- The text of a natural number in decimal. -/
def ofNat (n : Nat) : Text := ofString n.repr

/-- The first half of a surrogate pair. -/
def isHighSurrogate (u : CodeUnit) : Bool := 0xD800 ≤ u.toNat && u.toNat ≤ 0xDBFF

/-- The second half of a surrogate pair. -/
def isLowSurrogate (u : CodeUnit) : Bool := 0xDC00 ≤ u.toNat && u.toNat ≤ 0xDFFF

/-- The code point of a surrogate pair. -/
def pairPoint (high low : CodeUnit) : Nat :=
  0x10000 + (high.toNat - 0xD800) * 0x400 + (low.toNat - 0xDC00)

/-- The code points of a text.  A surrogate outside a pair counts as the point of its own value. -/
def points : Text → List Nat
  | [] => []
  | [u] => [u.toNat]
  | u :: v :: rest =>
    if isHighSurrogate u && isLowSurrogate v then pairPoint u v :: points rest
    else u.toNat :: points (v :: rest)

/-- The text as a string, if every surrogate in it is half of a pair. -/
def toString? (text : Text) : Option String :=
  (text.points.mapM fun p => if Nat.isValidChar p then some (Char.ofNat p) else none).map
    String.ofList

/-! ### Searching and cutting -/

/-- The needle occurs somewhere in the text, unit for unit. -/
def contains : Text → Text → Bool
  | [], needle => needle.isEmpty
  | u :: rest, needle => needle.isPrefixOf (u :: rest) || contains rest needle

/-- The text between quotes. -/
def quoted (text : Text) : Text := unit '\'' :: text ++ [unit '\'']

/-- The parts of a text, with the separator written between them. -/
def join (separator : String) (parts : List Text) : Text :=
  (ofString separator).intercalate parts

end Text

end PhotoQuery
