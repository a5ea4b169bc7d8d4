import PhotoQuery.Token.Scan

/-!
# Token — streams

A stream is what the grammar reads: the tokens before the first end, and the position of that end.
What a list holds behind its first end is not read, but a list must have an end as its last token.
-/

namespace PhotoQuery

/-- Tokens to be read, and the position where they end. -/
structure TokenStream where
  tokens : List Token
  stop : Nat
deriving DecidableEq

namespace TokenStream

/-- The tokens of a list before its first end, if the list ends in one. -/
def ofTokens? (tokens : List Token) : Option TokenStream :=
  match tokens.getLast?, tokens.find? (·.kind = .eof) with
  | some last, some stop =>
    if last.kind = .eof then some ⟨tokens.takeWhile (·.kind ≠ .eof), stop.position⟩ else none
  | _, _ => none

/-- The words for a list that does not end in an end. -/
def unendedMessage : Text := .ofString "Token list must end with an EOF token"

/-- The tokens of a source, which end where the source does. -/
def ofSource (source : Text) : Except (Located LexicalError) TokenStream :=
  (tokenize source).map fun tokens => ⟨tokens.takeWhile (·.kind ≠ .eof), source.length⟩

end TokenStream

end PhotoQuery
