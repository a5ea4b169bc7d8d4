import PhotoQuery.Function.Basic
import PhotoQuery.Operator
import PhotoQuery.Property.Basic

/-!
# Problem — what can be wrong with a query

A query can fail in three stages.  Its text may hold something that is no lexeme (`LexicalError`);
its lexemes may not form a query (`SyntaxError`); and a well-formed query may ask for a property
that no photo has, or join values that do not go together (`SemanticError`).  Each error names its
cause, `reason` words it, and `Located` says where in the source it was found.

A tree that was not read from a source may also hold a node that is none of the language's.  Such a
node has no place in a source, so its problem has none either.
-/

namespace PhotoQuery

/-- An error and the offset in the source that it is reported at. -/
structure Located (ε : Type) where
  position : Nat
  cause : ε
deriving DecidableEq

/-- The stages in which a query can fail. -/
inductive Stage where
  | lexical
  | syntactic
  | semantic
deriving DecidableEq

/-! ### Lexemes -/

/-- A source that does not consist of lexemes. -/
inductive LexicalError where
  | unexpectedUnit (u : CodeUnit)
  | unterminatedString
deriving DecidableEq

/-- The wording of a lexical error. -/
def LexicalError.reason : LexicalError → Text
  | .unexpectedUnit u => .ofString "Unexpected character " ++ Text.quoted [u]
  | .unterminatedString => .ofString "Unterminated string"

/-! ### Grammar -/

/-- Tokens that do not form a query.  A token is named as messages describe it. -/
inductive SyntaxError where
  | emptyExpression
  | nestedTooDeeply
  | expectedExpression (found : Text)
  | unexpectedToken (found : Text)
  | unclosedGroup
  | unclosedArguments (name : Text)
  | expectedSegment
  | expectedSortPath
  | expectedClause
  | expectedLimit
  | limitNotPositive
  | limitTooLarge (digits : Text)
  | integerTooLarge (digits : Text)
deriving DecidableEq

/-- The wording of a syntax error. -/
def SyntaxError.reason : SyntaxError → Text
  | .emptyExpression => .ofString "Empty filter expression"
  | .nestedTooDeeply => .ofString "Expression nested too deeply"
  | .expectedExpression found => .ofString "Expected expression, got " ++ found.quoted
  | .unexpectedToken found => .ofString "Unexpected token " ++ found.quoted
  | .unclosedGroup => .ofString "Expected ')' after expression"
  | .unclosedArguments name => .ofString "Expected ')' after arguments to " ++ name.quoted
  | .expectedSegment => .ofString "Expected property name after '.'"
  | .expectedSortPath => .ofString "Expected property name after 'sort'"
  | .expectedClause => .ofString "Expected 'sort' or 'limit' after '|'"
  | .expectedLimit => .ofString "Expected number after 'limit'"
  | .limitNotPositive => .ofString "Limit must be a positive number"
  | .limitTooLarge digits => .ofString "Limit " ++ digits ++ .ofString " is too large"
  | .integerTooLarge digits => .ofString "Integer " ++ digits ++ .ofString " is too large"

/-! ### Meaning -/

/-- The argument of a call that an error is about. -/
inductive ArgumentPlace where
  | only
  | first
  | second
deriving DecidableEq

/-- The argument as a message starts with it. -/
def ArgumentPlace.words : ArgumentPlace → String
  | .only => "Argument to "
  | .first => "First argument to "
  | .second => "Second argument to "

/-- The side of a connective that an error is about. -/
inductive Side where
  | left
  | right
deriving DecidableEq

/-- The side as a message starts with it. -/
def Side.words : Side → String
  | .left => "Left side of "
  | .right => "Right side of "

/-- A query that is well-formed and has no meaning. -/
inductive SemanticError where
  | emptyPath
  | unknownRoot (name : Text)
  | unknownExifField (path : List Text)
  | unknownProperty (path : List Text)
  | missingExifField
  | missingRawTag
  | unknownFunction (name : Text)
  | wrongArity (name : Text) (arity : Nat)
  | needsDate (name : Text)
  | needsString (place : ArgumentPlace) (name : Text)
  | sideNotBoolean (side : Side) (connective : Connective)
  | operandNotBoolean
  | orderedNull (operator : Comparison)
  | orderedBooleans (operator : Comparison)
  | incomparable (left right : Kind)
  | predicateNotBoolean
deriving DecidableEq

/-- A path as it is written. -/
def pathText (path : List Text) : Text := .join "." path

/-- The hint that ends a message about an unknown name. -/
def expectedOneOf (names : List String) : Text :=
  .ofString " (expected one of: " ++ .join ", " (names.map .ofString) ++ .ofString ")"

/-- The wording of a semantic error. -/
def SemanticError.reason : SemanticError → Text
  | .emptyPath => .ofString "Empty property path"
  | .unknownRoot name =>
    .ofString "Unknown property " ++ name.quoted ++ expectedOneOf Property.rootNames
  | .unknownExifField path =>
    .ofString "Unknown property " ++ (pathText path).quoted ++ expectedOneOf Property.exifNames
  | .unknownProperty path => .ofString "Unknown property " ++ (pathText path).quoted
  | .missingExifField => .ofString "Property 'exif' needs a field, e.g. 'exif.make'"
  | .missingRawTag => .ofString "Property 'exif.raw' needs a tag name, e.g. 'exif.raw.Rating'"
  | .unknownFunction name =>
    .ofString "Unknown function " ++ name.quoted ++
      expectedOneOf (Function.all.map Function.name)
  | .wrongArity name arity =>
    name.quoted ++ .ofString " function requires exactly " ++ .ofNat arity ++
      .ofString (if arity = 1 then " argument" else " arguments")
  | .needsDate name => name.quoted ++ .ofString " function requires a date argument"
  | .needsString place name =>
    .ofString place.words ++ name.quoted ++ .ofString " must be a string"
  | .sideNotBoolean side connective =>
    .ofString side.words ++ Text.quoted (.ofString connective.word) ++
      .ofString " must be boolean"
  | .operandNotBoolean => .ofString "'not' operator requires a boolean operand"
  | .orderedNull operator =>
    .ofString "Operator " ++ Text.quoted (.ofString operator.symbol) ++
      .ofString " cannot be used with null"
  | .orderedBooleans operator =>
    .ofString "Operator " ++ Text.quoted (.ofString operator.symbol) ++
      .ofString " cannot be used with boolean values"
  | .incomparable left right =>
    .ofString "Cannot compare " ++ Text.quoted (.ofString left.name) ++ .ofString " with " ++
      Text.quoted (.ofString right.name)
  | .predicateNotBoolean => .ofString "Filter expression must evaluate to a boolean"

/-! ### Any stage -/

/-- Why a query, or a tree for one, is refused. -/
inductive Problem where
  | lexical (error : Located LexicalError)
  | syntactic (error : Located SyntaxError)
  | semantic (error : Located SemanticError)
  | foreignNode (tag : Text)
deriving DecidableEq

namespace Problem

/-- The wording of a problem. -/
def reason : Problem → Text
  | .lexical e => e.cause.reason
  | .syntactic e => e.cause.reason
  | .semantic e => e.cause.reason
  | .foreignNode tag => .ofString "Unknown node type: " ++ tag

/-- The stage in which a problem is found, and where; a foreign node has no place in a source. -/
def place? : Problem → Option (Stage × Nat)
  | .lexical e => some (.lexical, e.position)
  | .syntactic e => some (.syntactic, e.position)
  | .semantic e => some (.semantic, e.position)
  | .foreignNode _ => none

end Problem

end PhotoQuery
