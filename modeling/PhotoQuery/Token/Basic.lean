import PhotoQuery.Operator
import PhotoQuery.Text.Basic

/-!
# Token — the tokens of a query

A token has a kind, a value and the position at which it starts.  The value of a string token is
the text that the literal denotes; the value of every other token is the source text that it
covers.  A keyword keeps its spelling, so a token list remembers how the source was written.
-/

namespace PhotoQuery

/-- The words with a meaning of their own. -/
inductive Keyword where
  | and
  | or
  | not
  | true
  | false
  | null
  | all
  | sort
  | limit
  | asc
  | desc
deriving DecidableEq

/-- The keyword in small letters. -/
def Keyword.spelling : Keyword → String
  | .and => "and"
  | .or => "or"
  | .not => "not"
  | .true => "true"
  | .false => "false"
  | .null => "null"
  | .all => "all"
  | .sort => "sort"
  | .limit => "limit"
  | .asc => "asc"
  | .desc => "desc"

/-- The keywords. -/
def Keyword.list : List Keyword :=
  [.and, .or, .not, .true, .false, .null, .all, .sort, .limit, .asc, .desc]

/-- The word that a connective is written as. -/
def Connective.keyword : Connective → Keyword
  | .and => .and
  | .or => .or

/-- The kinds of tokens. -/
inductive TokenKind where
  | eof
  | identifier
  | string
  | integer
  | decimal
  | dot
  | leftParen
  | rightParen
  | comma
  | pipe
  | comparison (operator : Comparison)
  | keyword (word : Keyword)
deriving DecidableEq

/-- A token of a source. -/
structure Token where
  kind : TokenKind
  value : Text
  position : Nat
deriving DecidableEq

/-- The token as messages describe it. -/
def Token.describe (token : Token) : Text :=
  match token.kind with
  | .eof => .ofString "end of expression"
  | .string => token.value.quoted
  | _ => token.value

end PhotoQuery
