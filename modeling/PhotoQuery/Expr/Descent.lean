import PhotoQuery.Expr.Parser
import PhotoQuery.Token.Cursor

/-!
# Expr — the descent

The grammar of predicates again, read by routines that share one cursor: it stands before what a
routine is to read and is left behind it, and its depth is raised on the way down and lowered on the
way up.  `not`, a parenthesis and a call lower it by the one level that they went down.  A chain
goes down a level with every connective, so it puts back the depth that it began with.

The routines call each other, and go round loops, without anything that would stop them in the end
but the tokens.  So each is given a number of steps that it may take on its way down, calls and
rounds of loops alike, and has no result if these are too few.  How many they are decides nothing
else: `enough` of them always suffice, and then more change nothing.
-/

namespace PhotoQuery

namespace Walk

/-- Goes down one level, unless that is too deep. -/
def enter (position : Nat) : Walk Unit := do
  let depth := (← get).depth
  if depth ≥ maxNestingDepth then refuse position .nestedTooDeeply else setDepth (depth + 1)

/-- Goes up one level. -/
def leave : Walk Unit := do
  setDepth ((← get).depth - 1)

variable (tokens : List Token)

/-- Reads the segments of a path behind its first one, each after a dot. -/
def segments : (steps : Nat) → Walk (List Text)
  | 0 => unfinished
  | n + 1 => do
    if ← accept tokens .dot then
      let name ← expect tokens .identifier .expectedSegment
      return name.value :: (← segments n)
    else return []

/-- Reads the path that starts with the name. -/
def path (first : Token) (steps : Nat) : Walk Expr := do
  return .property (first.value :: (← segments tokens steps)) first.position

mutual

/-- Reads operands with the connective between them, and puts back the depth. -/
def chain (c : Connective) : (steps : Nat) → Walk Expr
  | 0 => unfinished
  | n + 1 => do
    let depth := (← get).depth
    let first ← operand c n
    let e ← more c first n
    setDepth depth
    return e

/-- Reads an operand of a chain. -/
def operand (c : Connective) : (steps : Nat) → Walk Expr
  | 0 => unfinished
  | n + 1 =>
    match c with
    | .and => unary n
    | .or => chain .and n

/-- Reads on behind the first operands of a chain: the connective, an operand, and so on. -/
def more (c : Connective) (left : Expr) : (steps : Nat) → Walk Expr
  | 0 => unfinished
  | n + 1 => do
    if ← accept tokens (.keyword c.keyword) then
      let op ← previous tokens
      enter op.position
      let right ← operand c n
      more c (.logical c op.position left right) n
    else return left

/-- Reads a negation or a comparison. -/
def unary : (steps : Nat) → Walk Expr
  | 0 => unfinished
  | n + 1 => do
    if ← accept tokens (.keyword .not) then
      let op ← previous tokens
      enter op.position
      let e ← unary n
      leave
      return .negation op.position e
    else comparison n

/-- Reads a primary expression, and what it is compared with. -/
def comparison : (steps : Nat) → Walk Expr
  | 0 => unfinished
  | n + 1 => do
    let left ← primary n
    match Parser.comparisonOf? (← peek tokens) with
    | none => return left
    | some operator =>
      let op ← advance tokens
      let right ← primary n
      return .comparison operator op.position left right

/-- Reads a primary expression. -/
def primary : (steps : Nat) → Walk Expr
  | 0 => unfinished
  | n + 1 => do
    let t ← peek tokens
    match t.kind with
    | .leftParen =>
      let _ ← advance tokens
      enter t.position
      let e ← chain .or n
      let _ ← expect tokens .rightParen .unclosedGroup
      leave
      return e
    | .identifier =>
      let _ ← advance tokens
      if ← accept tokens .leftParen then call t n else path tokens t n
    | .string =>
      let _ ← advance tokens
      return .constant (.string t.value) t.position
    | .integer =>
      let _ ← advance tokens
      ofExcept (Parser.integer t)
    | .decimal =>
      let _ ← advance tokens
      return .constant (.decimal (.ofText t.value)) t.position
    | .keyword .true =>
      let _ ← advance tokens
      return .constant (.boolean true) t.position
    | .keyword .false =>
      let _ ← advance tokens
      return .constant (.boolean false) t.position
    | .keyword .null =>
      let _ ← advance tokens
      return .constant .null t.position
    | _ => refuse t.position (.expectedExpression t.describe)

/-- Reads the arguments of a call and the parenthesis that closes them. -/
def call (name : Token) : (steps : Nat) → Walk Expr
  | 0 => unfinished
  | n + 1 => do
    enter name.position
    let args ← argumentList n
    let _ ← expect tokens .rightParen (.unclosedArguments name.value)
    leave
    return .call name.value name.position args

/-- Reads the arguments of a call; before a closing parenthesis there are none. -/
def argumentList : (steps : Nat) → Walk (List Expr)
  | 0 => unfinished
  | n + 1 => do
    if (← peek tokens).kind = .rightParen then return [] else arguments n

/-- Reads expressions with commas between them. -/
def arguments : (steps : Nat) → Walk (List Expr)
  | 0 => unfinished
  | n + 1 => do
    let e ← chain .or n
    if ← accept tokens .comma then return e :: (← arguments n) else return [e]

end

/-- As many steps as any routine needs: it calls no more than ten others before it goes down a
level, and goes round no loop without reading a token. -/
def enough : Nat := tokens.length + 10 * (maxNestingDepth + 1)

end Walk

end PhotoQuery
