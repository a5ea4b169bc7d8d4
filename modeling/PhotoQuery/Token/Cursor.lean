import PhotoQuery.Problem
import PhotoQuery.Token.Basic

/-!
# Token — reading with a cursor

A reader with a cursor keeps its whole list of tokens, and moves along it.  The cursor is the index
of the next token, with the depth that the reader is at and the greatest depth it has been at.

A `Walk` is what a reader does from where its cursor is.  It may stop early, because what it reads
is refused or because it asks for a token that the list does not have, and then the cursor stays
where it is.  Walks are watched for a bounded number of steps only, and one that goes on for longer
has no result.

No step moves the cursor past an end: `advance` reads it and stays.
-/

namespace PhotoQuery

/-- Where a reader is: the index of the next token, the depth, and the greatest depth so far. -/
structure Cursor where
  current : Nat
  depth : Int
  peak : Int
deriving DecidableEq

/-- The cursor of a reader that starts at the index and the depth. -/
def Cursor.start (current depth : Nat) : Cursor := ⟨current, depth, depth⟩

/-- Why a reader stops early: for an error, or because a token is missing. -/
inductive Halt where
  | refused (error : Located SyntaxError)
  | outside

/-- What a reader does from where its cursor is. -/
abbrev Walk (α : Type) := ExceptT Halt (StateT Cursor Option) α

namespace Walk

/-- What comes of a walk, and the cursor after it; nothing, if its steps do not suffice. -/
def run {α : Type} (walk : Walk α) (c : Cursor) : Option (Except Halt α × Cursor) := walk c

/-- A walk without steps. -/
def unfinished {α : Type} : Walk α := fun _ => none

/-- Stops for an error. -/
def refuse {α : Type} (position : Nat) (cause : SyntaxError) : Walk α :=
  throw (.refused ⟨position, cause⟩)

/-- Goes on with a value, or stops for the error. -/
def ofExcept {α : Type} : Except (Located SyntaxError) α → Walk α
  | .ok a => pure a
  | .error e => throw (.refused e)

/-- Sets the depth.  This is the only step that changes it. -/
def setDepth (depth : Int) : Walk Unit :=
  modify fun c => { c with depth, peak := max c.peak depth }

section

variable (tokens : List Token)

/-- The token at an index. -/
def tokenAt (i : Nat) : Walk Token :=
  match tokens[i]? with
  | some t => pure t
  | none => throw .outside

/-- The next token. -/
def peek : Walk Token := do
  tokenAt tokens (← get).current

/-- The token behind the next one, or the last of the list. -/
def peekNext : Walk Token := do
  tokenAt tokens (min ((← get).current + 1) (tokens.length - 1))

/-- The token in front of the next one. -/
def previous : Walk Token := do
  match (← get).current with
  | 0 => throw .outside
  | i + 1 => tokenAt tokens i

/-- Reads the next token, and moves on unless it is an end. -/
def advance : Walk Token := do
  let t ← peek tokens
  if t.kind = .eof then return t
  else
    modify fun c => { c with current := c.current + 1 }
    return t

/-- Reads the next token if it is of the kind. -/
def accept (kind : TokenKind) : Walk Bool := do
  if (← peek tokens).kind = kind then
    let _ ← advance tokens
    return true
  else return false

/-- Reads a token, which must be of the kind. -/
def expect (kind : TokenKind) (cause : SyntaxError) : Walk Token := do
  let t ← peek tokens
  if t.kind = kind then advance tokens else refuse t.position cause

end

end Walk

end PhotoQuery
