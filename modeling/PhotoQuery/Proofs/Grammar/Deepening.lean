import PhotoQuery.Proofs.Grammar.Levels

/-!
# Grammar — deeper budgets

A larger budget takes nothing away: what a parser reads within a budget, the parser of a larger one
reads as well, and leaves the same (`Category.deepen`).  No assumption on the tokens is needed.

Only `enter` looks at the budget, and it fails where there is none.  So it is enough that each
parser keeps its good results (`Keeps`) when the level below keeps its own.
-/

namespace PhotoQuery.Grammar

open PhotoQuery.Parser Outcome

/-- The second result is as good as the first, if the first is good. -/
def Keeps {ε α : Type} (x x' : Except ε α) : Prop := ∀ a, x = .ok a → x' = .ok a

namespace Keeps

variable {ε α β : Type} {x x' : Except ε α}

theorem refl (x : Except ε α) : Keeps x x := fun _ h => h

theorem error (e : ε) (x' : Except ε α) : Keeps (.error e) x' := fun _ h => by cases h

/-- Stages that keep their good results keep them one after the other. -/
theorem bind {f f' : α → Except ε β} (h : Keeps x x') (hf : ∀ a, Keeps (f a) (f' a)) :
    Keeps (x >>= f) (x' >>= f') := by
  intro b hb
  obtain ⟨a, ha, hb⟩ := bind_eq_ok.mp hb
  rw [h a ha]
  exact hf a b hb

theorem map {f : α → β} (h : Keeps x x') : Keeps (x.map f) (x'.map f) := by
  rw [map_eq_bind, map_eq_bind]
  exact h.bind fun a => refl (.ok (f a))

end Keeps

/-- Each parser of the second level keeps what that of the first one reads. -/
structure Level.Keeps (l l' : Level) : Prop where
  unary : ∀ ts, Grammar.Keeps (l.unary ts) (l'.unary ts)
  conjunction : ∀ ts, Grammar.Keeps (l.conjunction ts) (l'.conjunction ts)
  disjunction : ∀ ts, Grammar.Keeps (l.disjunction ts) (l'.disjunction ts)
  moreConjuncts : ∀ e ts, Grammar.Keeps (l.moreConjuncts e ts) (l'.moreConjuncts e ts)
  moreDisjuncts : ∀ e ts, Grammar.Keeps (l.moreDisjuncts e ts) (l'.moreDisjuncts e ts)

section

variable {stop : Nat} {inner inner' : Option Level}
  (deeper : ∀ l, inner = some l → ∃ l', inner' = some l' ∧ Level.Keeps l l')

include deeper

/-- Going down a level keeps what is good behind it, and there is a level wherever there was. -/
theorem enter_keeps {α : Type} (position : Nat)
    {f f' : Level → Except (Located SyntaxError) α}
    (hf : ∀ {l l'}, Level.Keeps l l' → Keeps (f l) (f' l')) :
    Keeps (enter inner position >>= f) (enter inner' position >>= f') := by
  cases inner with
  | none => exact .error _ _
  | some l =>
    obtain ⟨l', rfl, keeps⟩ := deeper l rfl
    exact hf keeps

end

theorem arguments_keeps {p p' : Parser Expr} (h : ∀ ts, Keeps (p ts) (p' ts)) (n : Nat)
    (ts : List Token) : Keeps (arguments p n ts) (arguments p' n ts) := by
  induction n generalizing ts with
  | zero => exact (h ts).map
  | succ n ih =>
    refine (h ts).bind fun r => ?_
    obtain ⟨e, rest⟩ := r
    cases rest with
    | nil => exact .refl _
    | cons t rest =>
      dsimp only
      split
      · exact (ih rest).bind fun _ => .refl _
      · exact .refl _

theorem argumentList_keeps {p p' : Parser Expr} (h : ∀ ts, Keeps (p ts) (p' ts))
    (ts : List Token) : Keeps (argumentList p ts) (argumentList p' ts) := by
  unfold argumentList
  split
  · exact .refl _
  · exact arguments_keeps h _ ts

section

variable {stop : Nat} {inner inner' : Option Level}
  (deeper : ∀ l, inner = some l → ∃ l', inner' = some l' ∧ Level.Keeps l l')

include deeper

/-- A call is read as before if the levels below keep what they read. -/
theorem call_keeps (name : Token) (ts : List Token) :
    Keeps (call stop inner name ts) (call stop inner' name ts) :=
  enter_keeps deeper _ fun keeps =>
    (argumentList_keeps keeps.disjunction ts).bind fun _ => .refl _

theorem primary_keeps (ts : List Token) :
    Keeps (primary stop inner ts) (primary stop inner' ts) := by
  cases ts with
  | nil => exact .refl _
  | cons t rest =>
    simp only [primary]
    split
    · exact enter_keeps deeper _ fun keeps => (keeps.disjunction rest).bind fun _ => .refl _
    · cases rest with
      | nil => exact .refl _
      | cons next rest =>
        dsimp only
        split
        · exact call_keeps deeper t rest
        · exact .refl _
    all_goals exact .refl _

theorem comparison_keeps (ts : List Token) :
    Keeps (comparison stop inner ts) (comparison stop inner' ts) := by
  refine (primary_keeps deeper ts).bind fun r => ?_
  obtain ⟨left, rest⟩ := r
  cases rest with
  | nil => exact .refl _
  | cons t rest =>
    dsimp only
    split
    · exact .refl _
    · exact (primary_keeps deeper rest).bind fun _ => .refl _

theorem unary_keeps (ts : List Token) : Keeps (unary stop inner ts) (unary stop inner' ts) := by
  cases ts with
  | nil => exact comparison_keeps deeper []
  | cons t rest =>
    simp only [unary]
    split
    · exact enter_keeps deeper _ fun keeps => (keeps.unary rest).bind fun _ => .refl _
    · exact comparison_keeps deeper (t :: rest)

/-- A chain is read on as before if its operands and what is behind them are. -/
theorem chain_keeps (k : Connective) (word : Keyword) {operand : Level → Parser Expr}
    {more : Level → Expr → Parser Expr}
    (ho : ∀ {l l'}, Level.Keeps l l' → ∀ ts, Keeps (operand l ts) (operand l' ts))
    (hm : ∀ {l l'}, Level.Keeps l l' → ∀ e ts, Keeps (more l e ts) (more l' e ts))
    (left : Expr) (ts : List Token) :
    Keeps (chain k word operand more inner left ts) (chain k word operand more inner' left ts) := by
  cases ts with
  | nil => exact .refl _
  | cons t rest =>
    simp only [chain]
    split
    · exact enter_keeps deeper _ fun keeps => (ho keeps rest).bind fun r => hm keeps _ r.2
    · exact .refl _

/-- The parsers above a level keep what they read if the level does. -/
theorem above_keeps : Level.Keeps (above stop inner) (above stop inner') := by
  have conjuncts := chain_keeps deeper .and .and Level.Keeps.unary Level.Keeps.moreConjuncts
  have disjuncts := chain_keeps deeper .or .or Level.Keeps.conjunction Level.Keeps.moreDisjuncts
  have conjunction : ∀ ts, Keeps (conjunction stop inner ts) (conjunction stop inner' ts) :=
    fun ts => (unary_keeps deeper ts).bind fun r => conjuncts r.1 r.2
  have disjunction : ∀ ts, Keeps (disjunction stop inner ts) (disjunction stop inner' ts) :=
    fun ts => (conjunction ts).bind fun r => disjuncts r.1 r.2
  exact ⟨unary_keeps deeper, conjunction, disjunction, conjuncts, disjuncts⟩

end

/-- The level below a larger budget keeps what the level below a smaller one reads. -/
theorem below_keeps (stop : Nat) {d d' : Nat} (h : d ≤ d') :
    ∀ l, below stop d = some l → ∃ l', below stop d' = some l' ∧ Level.Keeps l l' := by
  induction d generalizing d' with
  | zero =>
    intro l hl
    cases hl
  | succ d ih =>
    intro l hl
    cases hl
    cases d' with
    | zero => exact absurd h (Nat.not_succ_le_zero d)
    | succ d' =>
      refine ⟨level stop d', rfl, ?_⟩
      rw [level_eq, level_eq]
      exact above_keeps (ih (Nat.le_of_succ_le_succ h))

/-- **A deeper parser reads whatever a parser reads**, and leaves the same. -/
theorem Category.deepen (category : Category) (stop : Nat) {d d' : Nat} (h : d ≤ d')
    (ts : List Token) : Keeps (category.parser stop d ts) (category.parser stop d' ts) := by
  have above : Level.Keeps (above stop (below stop d)) (above stop (below stop d')) :=
    above_keeps (below_keeps stop h)
  cases category with
  | primary => exact primary_keeps (below_keeps stop h) ts
  | comparison => exact comparison_keeps (below_keeps stop h) ts
  | unary => exact above.unary ts
  | conjunction => exact above.conjunction ts
  | disjunction => exact above.disjunction ts

/-- A call that is read within a budget is read within a larger one. -/
theorem call_deepen (name : Token) (stop : Nat) {d d' : Nat} (h : d ≤ d') (ts : List Token) :
    Keeps (call stop (below stop d) name ts) (call stop (below stop d') name ts) :=
  call_keeps (below_keeps stop h) name ts

end PhotoQuery.Grammar
