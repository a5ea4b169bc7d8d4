import PhotoQuery.Diagnosis
import PhotoQuery.Gallery.Selection
import PhotoQuery.Proofs.Diagnosis
import PhotoQuery.Proofs.Expr.Agreement
import PhotoQuery.Proofs.Expr.Comparing
import PhotoQuery.Proofs.Expr.DateParts
import PhotoQuery.Proofs.Expr.Literals
import PhotoQuery.Proofs.Expr.Occurrence
import PhotoQuery.Proofs.Expr.Values
import PhotoQuery.Proofs.Gallery.Agreement
import PhotoQuery.Proofs.Gallery.Blank
import PhotoQuery.Proofs.Gallery.Failure
import PhotoQuery.Proofs.Gallery.Log
import PhotoQuery.Proofs.Gallery.Order
import PhotoQuery.Proofs.Gallery.Override
import PhotoQuery.Proofs.Gallery.Permutation
import PhotoQuery.Proofs.Gallery.Selection
import PhotoQuery.Proofs.Gallery.Ties
import PhotoQuery.Proofs.Grammar.Balance
import PhotoQuery.Proofs.Grammar.RoundTrip
import PhotoQuery.Proofs.Query.Blank
import PhotoQuery.Proofs.Query.Composition
import PhotoQuery.Proofs.Query.Failure
import PhotoQuery.Proofs.Query.Nesting
import PhotoQuery.Proofs.Query.Permutation
import PhotoQuery.Proofs.Query.Places
import PhotoQuery.Proofs.Query.Positions
import PhotoQuery.Proofs.Query.Quoting
import PhotoQuery.Proofs.Query.Reader
import PhotoQuery.Proofs.Query.Recasing
import PhotoQuery.Proofs.Query.Reselection
import PhotoQuery.Proofs.Query.Selection
import PhotoQuery.Proofs.Query.Sorting
import PhotoQuery.Proofs.Query.Visibility
import PhotoQuery.Proofs.Sort.Preorder
import PhotoQuery.Proofs.Sort.Ranking
import PhotoQuery.Proofs.Token.Layout
import PhotoQuery.Proofs.Token.Rereading
