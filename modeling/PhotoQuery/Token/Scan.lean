import PhotoQuery.Number.Literal
import PhotoQuery.Problem
import PhotoQuery.Token.Basic

/-!
# Token — reading a source

A source is read from left to right.  Between the lexemes stand blanks; where there is none, the
longest lexeme is taken (`lexeme`), and the rest is read on.  `Scan.ofText` keeps the tokens found
so far also when it stops early, and then says where it stopped and why.

A `Scanner` reads the same way with a position that it moves along its source, and keeps the tokens
that it has found, so it can be asked for them later and can read the source again.

* Words are ASCII letters, digits and underscores, not starting with a digit.  A word that spells a
  keyword, in capital or small letters, is that keyword.
* A number is a run of digits; a point and more digits after it make it a decimal.
* A string stands between two like quotes.  A backslash keeps the next unit from its meaning: it
  writes a newline, a return or a tab as `n`, `r` or `t`, and any other unit as itself.
-/

namespace PhotoQuery

/-! ### Units -/

/-- A unit that a word can start with. -/
def isWordStart (u : CodeUnit) : Bool :=
  (unit 'a' ≤ u && u ≤ unit 'z') || (unit 'A' ≤ u && u ≤ unit 'Z') || u = unit '_'

/-- A unit that a word can go on with. -/
def isWordPart (u : CodeUnit) : Bool := isWordStart u || Text.isDigit u

/-- A unit that opens a string and closes it. -/
def isQuote (u : CodeUnit) : Bool := u = unit '"' || u = unit '\''

/-- The unit that a backslash before this one writes. -/
def unescape (u : CodeUnit) : CodeUnit :=
  if u = unit 'n' then unit '\n'
  else if u = unit 'r' then unit '\r'
  else if u = unit 't' then unit '\t'
  else u

/-! ### Lexemes -/

/-- The kind and the value of a token, and the number of source units that it covers. -/
structure Lexeme where
  kind : TokenKind
  value : Text
  length : Nat
deriving DecidableEq

/-- A lexeme whose value is the text that it covers. -/
def Lexeme.plain (kind : TokenKind) (value : Text) : Lexeme := ⟨kind, value, value.length⟩

/-- The tokens of a single unit. -/
def punctuation? (u : CodeUnit) : Option TokenKind :=
  if u = unit '(' then some .leftParen
  else if u = unit ')' then some .rightParen
  else if u = unit '.' then some .dot
  else if u = unit ',' then some .comma
  else if u = unit '|' then some .pipe
  else none

/-- The comparison that starts with a unit, given the text after it. -/
def comparison? (u : CodeUnit) (rest : Text) : Option Comparison :=
  let equals := rest.head? = some (unit '=')
  if u = unit '=' then if equals then some .equal else none
  else if u = unit '!' then if equals then some .notEqual else none
  else if u = unit '<' then some (if equals then .lessOrEqual else .less)
  else if u = unit '>' then some (if equals then .greaterOrEqual else .greater)
  else none

/-- The keyword that a word spells. -/
def keyword? (word : Text) : Option Keyword :=
  Keyword.list.find? fun k => word.lower == .ofString k.spelling

/-- The word at the start of a text. -/
def wordLexeme (text : Text) : Lexeme :=
  let word := text.takeWhile isWordPart
  .plain ((keyword? word).elim .identifier .keyword) word

/-- The digits behind a point at the start of a text. -/
def fractionDigits : Text → Text
  | [] => []
  | u :: rest => if u = unit '.' then rest.takeWhile Text.isDigit else []

/-- The number at the start of a text. -/
def numberLexeme (text : Text) : Lexeme :=
  let whole := text.takeWhile Text.isDigit
  let fraction := fractionDigits (text.dropWhile Text.isDigit)
  if fraction.isEmpty then .plain .integer whole
  else .plain .decimal (whole ++ unit '.' :: fraction)

/-- What a string literal denotes, and the number of units through its closing quote, given the
text behind the opening quote. -/
def stringBody? (quote : CodeUnit) : Text → Option (Text × Nat)
  | [] => none
  | [u] => if u = quote then some ([], 1) else none
  | u :: v :: rest =>
    if u = quote then some ([], 1)
    else if u = unit '\\' then
      (stringBody? quote rest).map fun (value, n) => (unescape v :: value, n + 2)
    else (stringBody? quote (v :: rest)).map fun (value, n) => (u :: value, n + 1)

/-- The lexeme at the start of the text `u :: rest`, which does not start with a blank. -/
def lexeme (u : CodeUnit) (rest : Text) : Except LexicalError Lexeme :=
  match punctuation? u, comparison? u rest with
  | some kind, _ => .ok (.plain kind [u])
  | none, some operator => .ok (.plain (.comparison operator) (.ofString operator.symbol))
  | none, none =>
    if isQuote u then
      match stringBody? u rest with
      | some (value, n) => .ok ⟨.string, value, n + 1⟩
      | none => .error .unterminatedString
    else if Text.isDigit u then .ok (numberLexeme (u :: rest))
    else if isWordStart u then .ok (wordLexeme (u :: rest))
    else .error (.unexpectedUnit u)

/-! ### Sources -/

/-- The tokens read from a source, and the error that reading stopped at, if it did. -/
structure Scan where
  tokens : List Token
  error? : Option (Located LexicalError)
deriving DecidableEq

namespace Scan

/-- The same, with one more token before the others. -/
def cons (token : Token) (scan : Scan) : Scan := ⟨token :: scan.tokens, scan.error?⟩

/-- Reads a text whose first unit stands at the position.  The last token is the end. -/
def ofTextAt (position : Nat) : Text → Scan
  | [] => ⟨[⟨.eof, [], position⟩], none⟩
  | u :: rest =>
    if Text.isBlank u then ofTextAt (position + 1) rest
    else
      match lexeme u rest with
      | .error cause => ⟨[], some ⟨position, cause⟩⟩
      | .ok l =>
        cons ⟨l.kind, l.value, position⟩
          (ofTextAt (position + 1 + (l.length - 1)) (rest.drop (l.length - 1)))
termination_by text => text.length

/-- Reads a source. -/
def ofText (source : Text) : Scan := ofTextAt 0 source

/-- The tokens, if the whole source could be read. -/
def result (scan : Scan) : Except (Located LexicalError) (List Token) :=
  match scan.error? with
  | none => .ok scan.tokens
  | some e => .error e

end Scan

/-- The tokens of a source, the end included. -/
def tokenize (source : Text) : Except (Located LexicalError) (List Token) :=
  (Scan.ofText source).result

/-! ### Reading more than once -/

/-- A source, the position of the next unit to read, and the tokens found so far. -/
structure Scanner where
  source : Text
  position : Nat := 0
  tokens : List Token := []

namespace Scanner

/-- The scanner with one more token, and at the position behind it. -/
def found (scanner : Scanner) (token : Token) (position : Nat) : Scanner :=
  { scanner with position, tokens := scanner.tokens ++ [token] }

/-- The scanner after an error.  It has gone to the end of the source for the end of a string. -/
def stopped (scanner : Scanner) : LexicalError → Scanner
  | .unexpectedUnit _ => scanner
  | .unterminatedString => { scanner with position := scanner.source.length }

/-- Reads on from the position, up to the end of the source or to an error. -/
def readOn (scanner : Scanner) : Option (Located LexicalError) × Scanner :=
  match h : scanner.source.drop scanner.position with
  | [] => (none, scanner.found ⟨.eof, [], scanner.source.length⟩ scanner.position)
  | u :: rest =>
    -- there is a unit, so the position is in front of the end and every round moves it
    have inside : scanner.position < scanner.source.length := by
      have left := congrArg List.length h
      rw [List.length_drop, List.length_cons] at left
      omega
    if Text.isBlank u then readOn { scanner with position := scanner.position + 1 }
    else
      match lexeme u rest with
      | .error cause => (some ⟨scanner.position, cause⟩, scanner.stopped cause)
      | .ok l =>
        readOn (scanner.found ⟨l.kind, l.value, scanner.position⟩
          (scanner.position + 1 + (l.length - 1)))
termination_by scanner.source.length - scanner.position
decreasing_by
  · omega
  · simp only [found]
    omega

/-- Reads the source again: from its start, whatever the scanner has found before. -/
def tokenize (scanner : Scanner) : Except (Located LexicalError) (List Token) × Scanner :=
  let (error?, after) := readOn { scanner with position := 0, tokens := [] }
  (Scan.result ⟨after.tokens, error?⟩, after)

end Scanner

end PhotoQuery
