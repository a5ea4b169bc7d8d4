import PhotoQuery.Expr.Parser
import PhotoQuery.Proofs.Grammar.Derivation
import PhotoQuery.Proofs.Outcome

/-!
# Grammar — levels

The parsers of a depth, by the category that each of them reads.  The part of a chain behind its
first operand (`more`) goes down one level with every connective, which is what `chainCost` counts.
-/

namespace PhotoQuery.Grammar

open PhotoQuery.Parser Outcome

/-- The level below a depth. -/
def below (stop : Nat) : Nat → Option Level
  | 0 => none
  | d + 1 => some (level stop d)

/-- A level is made of the parsers above the next lower one. -/
theorem level_eq (stop d : Nat) : level stop d = above stop (below stop d) := by
  cases d <;> rfl

/-- The parser for expressions of a category that nest to the depth. -/
def Category.parser (stop d : Nat) : Category → Parser Expr
  | .primary => Parser.primary stop (below stop d)
  | .comparison => Parser.comparison stop (below stop d)
  | .unary => Parser.unary stop (below stop d)
  | .conjunction => Parser.conjunction stop (below stop d)
  | .disjunction => Parser.disjunction stop (below stop d)

/-- The parser that reads on behind the first operands of a chain. -/
def more (stop d : Nat) : Connective → Expr → Parser Expr
  | .and => moreConjuncts (below stop d)
  | .or => moreDisjuncts (below stop d)

theorem level_unary (stop d : Nat) : (level stop d).unary = Category.unary.parser stop d := by
  rw [level_eq]; rfl

theorem level_disjunction (stop d : Nat) :
    (level stop d).disjunction = Category.disjunction.parser stop d := by
  rw [level_eq]; rfl

/-- A chain is a first operand, and then whatever goes on from it. -/
theorem parser_chain (stop d : Nat) (c : Connective) (ts : List Token) :
    (Category.chain c).parser stop d ts =
      (Category.operand c).parser stop d ts >>= fun (left, rest) => more stop d c left rest := by
  cases c <;> rfl

/-- At the end of the tokens a chain ends. -/
theorem more_nil (stop d : Nat) (c : Connective) (left : Expr) :
    more stop d c left [] = .ok (left, []) := by
  cases c <;> rfl

/-- A chain ends at a token that is not its connective. -/
theorem more_of_ne {stop d : Nat} {c : Connective} {left : Expr} {t : Token} {rest : List Token}
    (h : t.kind ≠ .keyword c.keyword) : more stop d c left (t :: rest) = .ok (left, t :: rest) := by
  cases c <;> exact if_neg h

/-- There is no way on from the lowest level. -/
theorem more_zero {stop : Nat} {c : Connective} {left : Expr} {t : Token} {rest : List Token}
    (h : t.kind = .keyword c.keyword) :
    more stop 0 c left (t :: rest) = .error ⟨t.position, .nestedTooDeeply⟩ := by
  cases c <;> exact if_pos h

/-- Behind its connective, a chain goes on one level down. -/
theorem more_succ {stop d : Nat} {c : Connective} {left : Expr} {t : Token} {rest : List Token}
    (h : t.kind = .keyword c.keyword) :
    more stop (d + 1) c left (t :: rest) =
      (Category.operand c).parser stop d rest >>= fun (right, rest) =>
        more stop d c (.logical c t.position left right) rest := by
  cases c
  · refine (if_pos h).trans ?_
    simp only [below, enter, ok_bind, level_eq stop d]
    rfl
  · refine (if_pos h).trans ?_
    simp only [below, enter, ok_bind, level_eq stop d]
    rfl

end PhotoQuery.Grammar
