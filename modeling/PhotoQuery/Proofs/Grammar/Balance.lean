import PhotoQuery.Proofs.Grammar.Deepening
import PhotoQuery.Proofs.Grammar.Descent
import PhotoQuery.Proofs.Grammar.Steps

/-!
# Grammar — depth and progress of the descent

Whatever the tokens are, a routine of the descent that is started at one of them ends.  If it ends
well, it has put the depth back and moved on, but not past an end (`Leaves`), and at no smaller
depth would it have read anything else (`Routine.balanced`).  That is what its parser does, read off
with `followed` and `Category.deepen`.
-/

namespace PhotoQuery.Grammar

open Walk hiding more

/-- The routines of the descent: one for each category, and the one that reads a call behind its
name and parenthesis. -/
inductive Routine where
  | expression (category : Category)
  | call (name : Token)

namespace Routine

/-- What the routine does within some steps. -/
def walk (tokens : List Token) (steps : Nat) : Routine → Walk Expr
  | .expression category => category.walk tokens steps
  | .call name => Walk.call tokens name steps

/-- The parser that reads the same within a budget. -/
def parser (stop room : Nat) : Routine → Parser Expr
  | .expression category => category.parser stop room
  | .call name => Parser.call stop (below stop room) name

/-- How a routine that ends well leaves the cursor `c'` that it was given as `c`: at the same depth,
further on, but not past an end; and a call, behind a closing parenthesis. -/
structure Leaves (tokens : List Token) (routine : Routine) (c c' : Cursor) : Prop where
  depth : c'.depth = c.depth
  further : c.current < c'.current
  inside : ∀ i t, c.current ≤ i → tokens[i]? = some t → t.kind = .eof → c'.current ≤ i
  closed : ∀ name, routine = .call name → c'.Behind tokens .rightParen

variable {tokens : List Token} {last : Token} {behind ts : List Token} {room : Nat} {c : Cursor}

/-- A cursor that has moved on within its tokens has not passed an end. -/
theorem At.leaves (h : At tokens last behind ts c) {rest : List Token} {c' : Cursor}
    (h' : At tokens last behind rest c') (shorter : rest.length + 1 ≤ ts.length)
    (depth : c'.depth = c.depth) (routine : Routine)
    (closed : ∀ name, routine = .call name → c'.Behind tokens .rightParen) :
    routine.Leaves tokens c c' := by
  have length := h.length_eq
  have length' := h'.length_eq
  refine ⟨depth, by omega, fun i t hi there ht => ?_, closed⟩
  have := h.le_of_eof hi there ht
  omega

theorem follows (routine : Routine) (h : At tokens last behind ts c) (hr : HasRoom room c)
    {steps : Nat} (hs : ts.length + 10 * room + 7 ≤ steps) :
    Follows tokens last behind ts 1
      (fun c' => c'.depth = c.depth ∧ ∀ name, routine = .call name → c'.Behind tokens .rightParen)
      (routine.parser last.position room ts) ((routine.walk tokens steps).run c) := by
  cases routine with
  | expression category =>
    have frames := category.frames_le
    have walk := (followed tokens last behind room).walk category h hr (n := steps) (by omega)
    exact walk.mono (Nat.le_refl _) fun depth => ⟨depth, fun _ call => by cases call⟩
  | call name =>
    have inner : ∀ d, room = d + 1 → Followed tokens last behind d := fun d _ => followed ..
    have walk := call_follows inner h hr name (n := steps) (by omega)
    exact walk.mono (Nat.le_refl _) fun left => ⟨left.1, fun _ _ => left.2⟩

theorem deepen (routine : Routine) (stop : Nat) {d d' : Nat} (h : d ≤ d') (ts : List Token) :
    Keeps (routine.parser stop d ts) (routine.parser stop d' ts) := by
  cases routine with
  | expression category => exact category.deepen stop h ts
  | call name => exact call_deepen name stop h ts

/-- More steps change nothing. -/
theorem walk_grows (tokens : List Token) (routine : Routine) {n n' : Nat} (h : n ≤ n') :
    Grows (routine.walk tokens n) (routine.walk tokens n') := by
  induction h with
  | refl => exact .refl _
  | @step n' _ ih =>
    have growing := growing tokens n'
    refine ih.trans ?_
    cases routine with
    | call name => exact growing.call name
    | expression category =>
      cases category with
      | primary => exact growing.primary
      | comparison => exact growing.comparison
      | unary => exact growing.unary
      | conjunction => exact growing.chain .and
      | disjunction => exact growing.chain .or

/-- A cursor at a depth has room for what is left of the nesting. -/
theorem hasRoom_start {i n : Nat} (hn : n ≤ maxNestingDepth) :
    HasRoom (maxNestingDepth - n) (.start i n) := by
  show (n : Int) + ((maxNestingDepth - n : Nat) : Int) = maxNestingDepth
  omega

section

variable (routine : Routine) {i n : Nat} (hn : n ≤ maxNestingDepth)
  (h : At tokens last behind ts (.start i n))

include hn h

/-- With enough steps, a routine follows its parser from wherever it starts. -/
theorem follows_start :
    Follows tokens last behind ts 1
      (fun c' => c'.depth = n ∧ ∀ name, routine = .call name → c'.Behind tokens .rightParen)
      (routine.parser last.position (maxNestingDepth - n) ts)
      ((routine.walk tokens (enough tokens)).run (.start i n)) := by
  have length := h.length_eq
  exact routine.follows h (hasRoom_start hn) (by unfold enough; omega)

/-- What its parser reads, a routine reads, and it leaves the cursor as it should. -/
theorem reads_start {e : Expr} {rest : List Token}
    (read : routine.parser last.position (maxNestingDepth - n) ts = .ok (e, rest)) :
    ∃ c', (∀ steps ≥ enough tokens,
        (routine.walk tokens steps).run (.start i n) = some (.ok e, c')) ∧
      At tokens last behind rest c' ∧ routine.Leaves tokens (.start i n) c' := by
  have walk := follows_start routine hn h
  rw [read] at walk
  generalize result : (routine.walk tokens (enough tokens)).run (.start i n) = y at walk
  cases walk with
  | @ok _ _ c' there post shorter =>
    exact ⟨c', fun steps hs => walk_grows tokens routine hs _ _ result, there,
      At.leaves h there shorter post.1 routine post.2⟩

/-- What its parser refuses, a routine refuses, and it has not been too deep. -/
theorem refuses_start {error : Located SyntaxError}
    (read : routine.parser last.position (maxNestingDepth - n) ts = .error error) :
    ∃ c', (∀ steps ≥ enough tokens,
        (routine.walk tokens steps).run (.start i n) = some (.error (.refused error), c')) ∧
      c'.peak ≤ maxNestingDepth := by
  have walk := follows_start routine hn h
  rw [read] at walk
  generalize result : (routine.walk tokens (enough tokens)).run (.start i n) = y at walk
  cases walk with
  | @error _ c' shallow =>
    exact ⟨c', fun steps hs => walk_grows tokens routine hs _ _ result, shallow⟩

end

/-- **Depth and progress of the descent.**  Start a routine at a token of a list that ends in an
end, and at a depth that a query may have.  Given enough steps, however many, it ends, and has
nowhere been deeper than queries may nest.  If it ends well, it leaves the cursor as it should, and
from any smaller depth it reads the same. -/
theorem balanced {tokens : List Token} (ends : tokens.getLast?.any (·.kind = .eof))
    (routine : Routine) {i n : Nat} (hi : i < tokens.length) (hn : n ≤ maxNestingDepth) :
    ∃ outcome c',
      (∀ steps ≥ enough tokens,
        (routine.walk tokens steps).run (.start i n) = some (outcome, c')) ∧
      c'.peak ≤ maxNestingDepth ∧
      ∀ e, outcome = .ok e → routine.Leaves tokens (.start i n) c' ∧
        ∀ m ≤ n, ∃ c'',
          (∀ steps ≥ enough tokens,
            (routine.walk tokens steps).run (.start i m) = some (.ok e, c'')) ∧
          c''.current = c'.current := by
  obtain ⟨last, behind, ts, h⟩ : ∃ last behind ts, At tokens last behind ts (.start i n) :=
    exists_at ends hi (Int.ofNat_le.mpr hn)
  cases read : routine.parser last.position (maxNestingDepth - n) ts with
  | error error =>
    obtain ⟨c', runs, shallow⟩ := refuses_start routine hn h read
    exact ⟨_, c', runs, shallow, fun e he => by cases he⟩
  | ok taken =>
    obtain ⟨e, rest⟩ := taken
    obtain ⟨c', runs, there, leaves⟩ := reads_start routine hn h read
    refine ⟨_, c', runs, there.shallow, fun e' he => ?_⟩
    cases he
    refine ⟨leaves, fun m hm => ?_⟩
    -- from a smaller depth, the parser of the larger budget has read the same
    have hm' := Nat.le_trans hm hn
    have h' : At tokens last behind ts (.start i m) :=
      ⟨h.place, h.inner, h.stop, Int.ofNat_le.mpr hm'⟩
    have read' := routine.deepen last.position (Nat.sub_le_sub_left hm _) ts _ read
    obtain ⟨c'', runs', there', -⟩ := reads_start routine hm' h' read'
    have length := there.length_eq
    have length' := there'.length_eq
    exact ⟨c'', runs', by omega⟩

/-- Behind `f(`, at the last depth but one, a call with one argument is read up to its parenthesis,
whatever the ends behind it. -/
theorem balanced_call :
    let name : Token := ⟨.identifier, .ofString "f", 0⟩
    let argument : Token := ⟨.identifier, .ofString "x", 2⟩
    let tokens : List Token :=
      [name, ⟨.leftParen, .ofString "(", 1⟩, argument, ⟨.rightParen, .ofString ")", 3⟩,
        ⟨.eof, [], 4⟩, argument, ⟨.eof, [], 5⟩]
    ∃ e c',
      (∀ steps ≥ enough tokens,
        ((Routine.call name).walk tokens steps).run (.start 2 255) = some (.ok e, c')) ∧
      c'.peak ≤ maxNestingDepth ∧ (Routine.call name).Leaves tokens (.start 2 255) c' ∧
      ∀ m ≤ 255, ∃ c'',
        (∀ steps ≥ enough tokens,
          ((Routine.call name).walk tokens steps).run (.start 2 m) = some (.ok e, c'')) ∧
        c''.current = c'.current := by
  intro name argument tokens
  have ends : tokens.getLast?.any (·.kind = .eof) := by decide
  obtain ⟨outcome, c', result, shallow, good⟩ :=
    balanced ends (.call name) (i := 2) (n := 255) (by decide) (by decide)
  have there : At tokens ⟨.eof, [], 4⟩ [argument, ⟨.eof, [], 5⟩]
      [argument, ⟨.rightParen, .ofString ")", 3⟩] (.start 2 255) :=
    ⟨rfl, by decide, rfl, by decide⟩
  obtain ⟨c₀, read, -⟩ := reads_start (.call name) (by decide) there rfl
  cases (result _ (Nat.le_refl _)).symm.trans (read _ (Nat.le_refl _))
  exact ⟨_, c', result, shallow, good _ rfl⟩

end Routine

end PhotoQuery.Grammar
