import PhotoQuery.Text.Basic

/-!
# Text — blanks

The blank units are the white space and the line ends of the text of a query: the ASCII controls
from tab to carriage return, the space separators of Unicode, the two line separators and the byte
order mark.  The next-line control U+0085 and the zero-width space U+200B are not blank.

`Text.trim` drops the blanks at both ends; of an all-blank text (`Text.allBlank`) nothing is left.
-/

namespace PhotoQuery.Text

/-- White space and line ends. -/
def isBlank (u : CodeUnit) : Bool :=
  let n := u.toNat
  (9 ≤ n && n ≤ 13) || n == 0x20 || n == 0xA0 || n == 0x1680 || (0x2000 ≤ n && n ≤ 0x200A) ||
    n == 0x2028 || n == 0x2029 || n == 0x202F || n == 0x205F || n == 0x3000 || n == 0xFEFF

/-- The text has no unit that is not blank. -/
def allBlank (text : Text) : Bool := text.all isBlank

/-- The text without the blanks before it. -/
def trimStart (text : Text) : Text := text.dropWhile isBlank

/-- The text without the blanks after it. -/
def trimEnd (text : Text) : Text := (text.reverse.dropWhile isBlank).reverse

/-- The text without the blanks at its two ends. -/
def trim (text : Text) : Text := text.trimStart.trimEnd

end PhotoQuery.Text
