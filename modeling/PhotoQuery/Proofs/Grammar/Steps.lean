import PhotoQuery.Proofs.Token.Cursor

/-!
# Grammar — the steps of the descent

How many steps a routine is given decides only whether it has a result: what it ends in within some
steps, it ends in within more (`Growing`).  So the routines are the better and better beginnings of
one walk, and any two of them that have a result have the same.
-/

namespace PhotoQuery.Walk

/-- Where the first walk has a result, the second has the same. -/
def Grows {α : Type} (w w' : Walk α) : Prop := ∀ c r, w.run c = some r → w'.run c = some r

namespace Grows

variable {α β : Type} {w w' w'' : Walk α}

theorem refl (w : Walk α) : Grows w w := fun _ _ h => h

theorem trans (h : Grows w w') (h' : Grows w' w'') : Grows w w'' :=
  fun c r hr => h' c r (h c r hr)

/-- A walk without a result grows into any. -/
theorem unfinished (w : Walk α) : Grows Walk.unfinished w := fun _ _ h => by cases h

/-- Where both parts grow, so does the walk made of them. -/
theorem bind {f f' : α → Walk β} (h : Grows w w') (hf : ∀ a, Grows (f a) (f' a)) :
    Grows (w >>= f) (w' >>= f') := by
  intro c r hr
  cases result : w.run c with
  | none =>
    rw [run_bind_none result] at hr
    cases hr
  | some p =>
    obtain ⟨outcome, c'⟩ := p
    cases outcome with
    | error e =>
      rw [run_bind_error result] at hr
      rwa [run_bind_error (h c _ result)]
    | ok a =>
      rw [run_bind_ok result] at hr
      rw [run_bind_ok (h c _ result)]
      exact hf a c' r hr

end Grows

variable (tokens : List Token)

/-- With one step more, the segments of a path are read as before. -/
theorem segments_grows (n : Nat) : Grows (segments tokens n) (segments tokens (n + 1)) := by
  induction n with
  | zero => exact .unfinished _
  | succ n ih =>
    rw [segments, segments]
    refine (Grows.refl _).bind fun dotted => ?_
    split
    · exact (Grows.refl _).bind fun name => ih.bind fun path => .refl _
    · exact .refl _

/-- With one step more, each routine does the same. -/
structure Growing (n : Nat) : Prop where
  chain : ∀ k, Grows (chain tokens k n) (Walk.chain tokens k (n + 1))
  operand : ∀ k, Grows (operand tokens k n) (Walk.operand tokens k (n + 1))
  more : ∀ k left, Grows (more tokens k left n) (Walk.more tokens k left (n + 1))
  unary : Grows (unary tokens n) (Walk.unary tokens (n + 1))
  comparison : Grows (comparison tokens n) (Walk.comparison tokens (n + 1))
  primary : Grows (primary tokens n) (Walk.primary tokens (n + 1))
  call : ∀ name, Grows (call tokens name n) (Walk.call tokens name (n + 1))
  argumentList : Grows (argumentList tokens n) (Walk.argumentList tokens (n + 1))
  arguments : Grows (arguments tokens n) (Walk.arguments tokens (n + 1))

/-- A primary is read as before with one step more, if what it may contain is. -/
theorem primary_grows {n : Nat} (ih : Growing tokens n) :
    Grows (primary tokens (n + 1)) (primary tokens (n + 2)) := by
  rw [primary, primary]
  refine (Grows.refl _).bind fun t => ?_
  split
  · refine (Grows.refl _).bind fun _ => (Grows.refl _).bind fun _ => ?_
    exact (ih.chain .or).bind fun e => .refl _
  · refine (Grows.refl _).bind fun _ => (Grows.refl _).bind fun called => ?_
    split
    · exact ih.call t
    · exact (segments_grows tokens n).bind fun path => .refl _
  all_goals exact .refl _

/-- **Steps decide only whether there is a result.**  With one step more, every routine has the
result that it had. -/
theorem growing (n : Nat) : Growing tokens n := by
  induction n with
  | zero => constructor <;> intros <;> exact .unfinished _
  | succ n ih =>
    -- each routine is made of routines of one step less, in the order of the fields
    refine ⟨fun k => ?_, fun k => ?_, fun k left => ?_, ?_, ?_, primary_grows tokens ih,
      fun name => ?_, ?_, ?_⟩
    · rw [chain, chain]
      refine (Grows.refl _).bind fun c => (ih.operand k).bind fun first => ?_
      exact (ih.more k first).bind fun e => .refl _
    · cases k
      · exact ih.unary
      · exact ih.chain .and
    · rw [more, more]
      refine (Grows.refl _).bind fun joined => ?_
      split
      · refine (Grows.refl _).bind fun op => (Grows.refl _).bind fun _ => ?_
        exact (ih.operand k).bind fun right => ih.more k _
      · exact .refl _
    · rw [unary, unary]
      refine (Grows.refl _).bind fun negated => ?_
      split
      · refine (Grows.refl _).bind fun op => (Grows.refl _).bind fun _ => ?_
        exact ih.unary.bind fun e => .refl _
      · exact ih.comparison
    · rw [comparison, comparison]
      refine ih.primary.bind fun left => (Grows.refl _).bind fun t => ?_
      split
      · exact .refl _
      · exact (Grows.refl _).bind fun op => ih.primary.bind fun right => .refl _
    · rw [call, call]
      exact (Grows.refl _).bind fun _ => ih.argumentList.bind fun args => .refl _
    · rw [argumentList, argumentList]
      refine (Grows.refl _).bind fun t => ?_
      split
      · exact .refl _
      · exact ih.arguments
    · rw [arguments, arguments]
      refine (ih.chain .or).bind fun e => (Grows.refl _).bind fun further => ?_
      split
      · exact ih.arguments.bind fun es => .refl _
      · exact .refl _

end PhotoQuery.Walk
