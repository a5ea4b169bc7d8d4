import PhotoQuery.Expr.Basic
import PhotoQuery.Number.Literal
import PhotoQuery.Problem
import PhotoQuery.Token.Basic

/-!
# Expr — reading predicates

The grammar of predicates, from the loosest operator to the tightest:

* a disjunction is one or more conjunctions with `or` between them, grouped to the left;
* a conjunction is one or more unary expressions with `and` between them, grouped to the left;
* a unary expression is `not` and a unary expression, or a comparison;
* a comparison is a primary expression, or two with a comparison operator between them;
* a primary expression is a literal, a disjunction in parentheses, a call with disjunctions for its
  arguments, or a property path.

Reading is by recursive descent and needs no token to be read twice.  A parser takes a list of
tokens and leaves what it has not used; `stop` is the position that errors at the end of the list
are reported at.

Nesting is bounded.  Parentheses, calls, `not` and every operand of a chain but its first each take
one step of a budget, and `level` gives the parsers by the number of steps that are left.  A parser
calls only parsers of its own level that stand before it, and parsers of the level below.
-/

namespace PhotoQuery

/-- Reads a value off the front of a token list, and leaves the rest of the list. -/
abbrev Parser (α : Type) := List Token → Except (Located SyntaxError) (α × List Token)

/-- The deepest nesting that a query may have. -/
def maxNestingDepth : Nat := 256

/-- The parsers for expressions that may nest to some depth.  The last two read on behind the
first operands of a chain. -/
structure Level where
  unary : Parser Expr
  conjunction : Parser Expr
  disjunction : Parser Expr
  moreConjuncts : Expr → Parser Expr
  moreDisjuncts : Expr → Parser Expr

namespace Parser

/-- The level below, unless there is none; the step down is taken at the position. -/
def enter (inner : Option Level) (position : Nat) : Except (Located SyntaxError) Level :=
  match inner with
  | some level => .ok level
  | none => .error ⟨position, .nestedTooDeeply⟩

section

variable (stop : Nat)

/-- Reads one token of the kind. -/
def expect (kind : TokenKind) (cause : SyntaxError) : Parser Token
  | [] => .error ⟨stop, cause⟩
  | t :: rest => if t.kind = kind then .ok (t, rest) else .error ⟨t.position, cause⟩

/-- Reads the segments of a path behind its first one, each after a dot. -/
def segments : Parser (List Text)
  | [] => .ok ([], [])
  | t :: rest =>
    if t.kind = .dot then
      match rest with
      | [] => .error ⟨stop, .expectedSegment⟩
      | name :: rest =>
        if name.kind = .identifier then
          (segments rest).map fun (path, rest) => (name.value :: path, rest)
        else .error ⟨name.position, .expectedSegment⟩
    else .ok ([], t :: rest)

/-- Reads the path that starts with the name. -/
def path (first : Token) : Parser Expr := fun tokens =>
  (segments stop tokens).map fun (path, rest) =>
    (.property (first.value :: path) first.position, rest)

/-- Reads expressions with commas between them.  There are no more of them behind the first than
`more`. -/
def arguments (argument : Parser Expr) : Nat → Parser (List Expr)
  | 0, tokens => (argument tokens).map fun (e, rest) => ([e], rest)
  | more + 1, tokens => do
    let (e, rest) ← argument tokens
    match rest with
    | [] => .ok ([e], [])
    | t :: rest =>
      if t.kind = .comma then do
        let (es, rest) ← arguments argument more rest
        .ok (e :: es, rest)
      else .ok ([e], t :: rest)

/-- Reads the arguments of a call; before a closing parenthesis there are none. -/
def argumentList (argument : Parser Expr) : Parser (List Expr) := fun tokens =>
  if tokens.head?.any (·.kind = .rightParen) then .ok ([], tokens)
  else arguments argument tokens.length tokens

/-- Reads the arguments of a call and the parenthesis that closes them. -/
def call (inner : Option Level) (name : Token) : Parser Expr := fun tokens => do
  let level ← enter inner name.position
  let (args, rest) ← argumentList level.disjunction tokens
  let (_, rest) ← expect stop .rightParen (.unclosedArguments name.value) rest
  .ok (.call name.value name.position args, rest)

/-- Reads the literal that an integer token stands for. -/
def integer (t : Token) : Except (Located SyntaxError) Expr :=
  let number := Number.ofText t.value
  if number.safeInteger?.isSome then .ok (.constant (.integer number) t.position)
  else .error ⟨t.position, .integerTooLarge t.value⟩

/-- Reads a primary expression. -/
def primary (inner : Option Level) : Parser Expr
  | [] => .error ⟨stop, .expectedExpression (Token.describe ⟨.eof, [], stop⟩)⟩
  | t :: rest =>
    match t.kind with
    | .leftParen => do
      let level ← enter inner t.position
      let (e, rest) ← level.disjunction rest
      let (_, rest) ← expect stop .rightParen .unclosedGroup rest
      .ok (e, rest)
    | .identifier =>
      match rest with
      | [] => path stop t []
      | next :: rest =>
        if next.kind = .leftParen then call stop inner t rest else path stop t (next :: rest)
    | .string => .ok (.constant (.string t.value) t.position, rest)
    | .integer => (integer t).map fun e => (e, rest)
    | .decimal => .ok (.constant (.decimal (.ofText t.value)) t.position, rest)
    | .keyword .true => .ok (.constant (.boolean true) t.position, rest)
    | .keyword .false => .ok (.constant (.boolean false) t.position, rest)
    | .keyword .null => .ok (.constant .null t.position, rest)
    | _ => .error ⟨t.position, .expectedExpression t.describe⟩

/-- The comparison operator that a token is. -/
def comparisonOf? (t : Token) : Option Comparison :=
  match t.kind with
  | .comparison operator => some operator
  | _ => none

/-- Reads a primary expression, and what it is compared with. -/
def comparison (inner : Option Level) : Parser Expr := fun tokens => do
  let (left, rest) ← primary stop inner tokens
  match rest with
  | [] => .ok (left, [])
  | t :: rest =>
    match comparisonOf? t with
    | none => .ok (left, t :: rest)
    | some operator => do
      let (right, rest) ← primary stop inner rest
      .ok (.comparison operator t.position left right, rest)

/-- Reads a negation or a comparison. -/
def unary (inner : Option Level) : Parser Expr
  | [] => comparison stop inner []
  | t :: rest =>
    if t.kind = .keyword .not then do
      let level ← enter inner t.position
      let (operand, rest) ← level.unary rest
      .ok (.negation t.position operand, rest)
    else comparison stop inner (t :: rest)

end

/-- Reads on behind the first operands of a chain: the connective, an operand, and so on. -/
def chain (connective : Connective) (word : Keyword) (operand : Level → Parser Expr)
    (more : Level → Expr → Parser Expr) (inner : Option Level) (left : Expr) : Parser Expr
  | [] => .ok (left, [])
  | t :: rest =>
    if t.kind = .keyword word then do
      let level ← enter inner t.position
      let (right, rest) ← operand level rest
      more level (.logical connective t.position left right) rest
    else .ok (left, t :: rest)

/-- Reads on behind the first operands of a conjunction. -/
def moreConjuncts (inner : Option Level) : Expr → Parser Expr :=
  chain .and .and Level.unary Level.moreConjuncts inner

/-- Reads on behind the first operands of a disjunction. -/
def moreDisjuncts (inner : Option Level) : Expr → Parser Expr :=
  chain .or .or Level.conjunction Level.moreDisjuncts inner

/-- Reads unary expressions with `and` between them. -/
def conjunction (stop : Nat) (inner : Option Level) : Parser Expr := fun tokens => do
  let (left, rest) ← unary stop inner tokens
  moreConjuncts inner left rest

/-- Reads conjunctions with `or` between them. -/
def disjunction (stop : Nat) (inner : Option Level) : Parser Expr := fun tokens => do
  let (left, rest) ← conjunction stop inner tokens
  moreDisjuncts inner left rest

/-- The level above the given one. -/
def above (stop : Nat) (inner : Option Level) : Level where
  unary := unary stop inner
  conjunction := conjunction stop inner
  disjunction := disjunction stop inner
  moreConjuncts := moreConjuncts inner
  moreDisjuncts := moreDisjuncts inner

/-- The parsers for expressions that may nest to the depth. -/
def level (stop : Nat) : (depth : Nat) → Level
  | 0 => above stop none
  | depth + 1 => above stop (some (level stop depth))

end Parser

end PhotoQuery
