import PhotoQuery.Proofs.Grammar.Levels
import PhotoQuery.Proofs.Token.Cursor

/-!
# Grammar — the descent follows the parsers

The routines of the descent keep a depth and a cursor where the parsers are given a budget and a
list of tokens.  A routine that has room for some levels follows the parser of that budget, leaves
the depth as it was and moves on by at least one token; behind the first operands of a chain, where
the depth goes down and stays there, it need not move (`Followed`).

The induction is on the room that is left.  Each way down goes through `enter`, which takes one
level of it (`enter_follows`); all other calls are of a category that is tighter, and these are
compared one after the other, from the primary expressions up (`followed`).  One step for each token
and ten for each level of room are enough, with a few for the routine itself (`Category.frames`).
-/

namespace PhotoQuery.Grammar

open Outcome
open Walk hiding more

/-- The routine that reads the expressions of a category, within some steps. -/
def Category.walk (tokens : List Token) (steps : Nat) : Category → Walk Expr
  | .primary => Walk.primary tokens steps
  | .comparison => Walk.comparison tokens steps
  | .unary => Walk.unary tokens steps
  | .conjunction => Walk.chain tokens .and steps
  | .disjunction => Walk.chain tokens .or steps

/-- The steps from the routine of a category down to what goes down a level. -/
def Category.frames : Category → Nat
  | .primary => 1
  | .comparison => 2
  | .unary => 3
  | .conjunction => 5
  | .disjunction => 7

theorem Category.frames_le (category : Category) : category.frames ≤ 7 := by
  cases category <;> decide

theorem walk_chain (tokens : List Token) (n : Nat) (k : Connective) :
    (Category.chain k).walk tokens n = Walk.chain tokens k n := by
  cases k <;> rfl

theorem walk_operand (tokens : List Token) (n : Nat) (k : Connective) :
    Walk.operand tokens k (n + 1) = (Category.operand k).walk tokens n := by
  cases k <;> rfl

/-- The cursor is as many levels above the deepest one. -/
def HasRoom (room : Nat) (c : Cursor) : Prop := c.depth + room = maxNestingDepth

theorem HasRoom.of_depth {room : Nat} {c c' : Cursor} (h : HasRoom room c)
    (hd : c'.depth = c.depth) : HasRoom room c' := by
  rw [HasRoom, hd]
  exact h

section

variable {tokens : List Token} {last : Token} {behind ts : List Token} {room : Nat} {c : Cursor}

/-! ### Going down and up -/

/-- A walk goes down where there is room, and is refused where the parser is. -/
theorem descend_follows {α : Type} {whole : List Token} {low : Nat} {D : Cursor → Prop}
    {x : Except (Located SyntaxError) (α × List Token)} {g : Unit → Walk α} {position : Nat}
    (h : At tokens last behind ts c) (hr : HasRoom room c)
    (bottom : room = 0 → x = .error ⟨position, .nestedTooDeeply⟩)
    (down : ∀ {d}, room = d + 1 → At tokens last behind ts (c.at (c.depth + 1)) →
      HasRoom d (c.at (c.depth + 1)) →
      Follows tokens last behind whole low D x ((g ()).run (c.at (c.depth + 1)))) :
    Follows tokens last behind whole low D x ((Walk.enter position >>= g).run c) := by
  unfold HasRoom at hr
  cases room with
  | zero =>
    rw [bottom rfl, run_bind_error (run_enter_of_ge position (by omega))]
    exact .error h.shallow
  | succ d =>
    rw [run_bind_ok (run_enter position (by omega))]
    refine down rfl (h.at_ (by omega)) ?_
    show c.depth + 1 + d = maxNestingDepth
    omega

/-- A walk goes down a level where the budget has one. -/
theorem enter_follows {α : Type} {whole : List Token} {low : Nat} {D : Cursor → Prop}
    {f : Level → Except (Located SyntaxError) (α × List Token)} {g : Unit → Walk α}
    {position : Nat} (h : At tokens last behind ts c) (hr : HasRoom room c)
    (down : ∀ {d}, room = d + 1 → At tokens last behind ts (c.at (c.depth + 1)) →
      HasRoom d (c.at (c.depth + 1)) →
      Follows tokens last behind whole low D (f (Parser.level last.position d))
        ((g ()).run (c.at (c.depth + 1)))) :
    Follows tokens last behind whole low D
      (Parser.enter (below last.position room) position >>= f)
      ((Walk.enter position >>= g).run c) := by
  refine descend_follows h hr (fun hz => ?_) fun {d} hd there roomy => ?_
  · subst hz
    rfl
  · subst hd
    exact down rfl there roomy

/-- Going up a level only gives the depth back. -/
theorem leave_follows {α : Type} {whole : List Token} {low : Nat} {D : Cursor → Prop}
    (h : At tokens last behind ts c) (hr : HasRoom room c) (post : D (c.at (c.depth - 1)))
    (used : ts.length + low ≤ whole.length) (a : α) :
    Follows tokens last behind whole low D (.ok (a, ts)) ((do leave; return a : Walk α).run c) := by
  unfold HasRoom at hr
  rw [run_bind_ok (run_leave c)]
  exact .pure (h.at_ (by omega)) post used

/-- The end of what went down a level: a token, the way up, and the value. -/
theorem close_follows {α : Type} {whole : List Token} {c₀ : Cursor}
    (h : At tokens last behind ts c) (hd : c.depth = c₀.depth + 1) (hr : HasRoom room c)
    (used : ts.length ≤ whole.length) {kind : TokenKind} (hk : kind ≠ .eof) (cause : SyntaxError)
    (a : α) :
    Follows tokens last behind whole 1 (fun c' => c'.depth = c₀.depth ∧ c'.Behind tokens kind)
      (Parser.expect last.position kind cause ts >>= fun (_, rest) => .ok (a, rest))
      ((do let _ ← Walk.expect tokens kind cause; leave; return a : Walk α).run c) := by
  refine (h.expect hk cause).bind fun there closed shorter => ?_
  obtain ⟨rfl, closing⟩ := closed
  refine leave_follows there (hr.of_depth rfl) ⟨?_, closing⟩ (by omega) a
  rw [Cursor.at_depth, Cursor.next_depth, hd, Int.add_sub_cancel]

/-! ### Paths -/

/-- Behind a dot a name must come, and then more segments may. -/
theorem segments_of_dot {stop : Nat} {t : Token} {rest : List Token} (h : t.kind = .dot) :
    Parser.segments stop (t :: rest) =
      Parser.expect stop .identifier .expectedSegment rest >>= fun (name, rest) =>
        (Parser.segments stop rest).map fun (path, rest) => (name.value :: path, rest) := by
  rw [Parser.segments.eq_def]
  cases rest with
  | nil => exact if_pos h
  | cons name rest =>
    by_cases hname : name.kind = .identifier
    · simp only [h, Parser.expect, hname, if_true, ok_bind]
    · simp only [h, Parser.expect, hname, if_true, if_false, error_bind]

/-- Segments are read as their parser does, a step for each. -/
theorem segments_follows (h : At tokens last behind ts c) {n : Nat} (hn : ts.length < n) :
    Follows tokens last behind ts 0 (fun c' => c'.depth = c.depth)
      (Parser.segments last.position ts) ((Walk.segments tokens n).run c) := by
  induction n generalizing ts c with
  | zero => exact absurd hn (Nat.not_lt_zero _)
  | succ n ih =>
    rw [Walk.segments]
    cases ts with
    | nil =>
      rw [h.run_ite_accept_of_ne _ _ (h.kind_ne_of_nil (by simp))]
      exact .pure h rfl (Nat.le_refl _)
    | cons t rest =>
      by_cases dot : t.kind = .dot
      · rw [segments_of_dot dot, h.run_ite_accept _ _ dot]
        refine (h.next.expect (by simp) _).bind fun there closed shorter => ?_
        obtain ⟨rfl, -⟩ := closed
        rw [List.length_cons] at hn
        exact ((ih there (by omega)).map fun _ _ => rfl).mono (by simp; omega) id
      · rw [h.run_ite_accept_of_ne _ _ dot, Parser.segments.eq_def]
        simp only [dot, if_false]
        exact .pure h rfl (Nat.le_refl _)

theorem path_follows (h : At tokens last behind ts c) (first : Token) {n : Nat}
    (hn : ts.length < n) :
    Follows tokens last behind ts 0 (fun c' => c'.depth = c.depth)
      (Parser.path last.position first ts) ((Walk.path tokens first n).run c) :=
  (segments_follows h hn).map fun _ _ => rfl

/-! ### What one level adds -/

/-- Every routine with the room, and with enough steps, follows its parser.  Where a chain reads on,
it need not find anything, and the depth may be any afterwards. -/
structure Followed (tokens : List Token) (last : Token) (behind : List Token) (room : Nat) :
    Prop where
  walk : ∀ (category : Category) {ts : List Token} {c : Cursor} {n : Nat},
    At tokens last behind ts c → HasRoom room c → ts.length + 10 * room + category.frames ≤ n →
    Follows tokens last behind ts 1 (fun c' => c'.depth = c.depth)
      (category.parser last.position room ts) ((category.walk tokens n).run c)
  more : ∀ (k : Connective) (left : Expr) {ts : List Token} {c : Cursor} {n : Nat},
    At tokens last behind ts c → HasRoom room c → ts.length + 10 * room + 1 ≤ n →
    Follows tokens last behind ts 0 (fun _ => True) (more last.position room k left ts)
      ((Walk.more tokens k left n).run c)

/-- What an argument is read by. -/
theorem Followed.argument (level : Followed tokens last behind room)
    (h : At tokens last behind ts c) (hr : HasRoom room c) {n : Nat}
    (hn : ts.length + 10 * room + 7 ≤ n) :
    Follows tokens last behind ts 1 (fun c' => c'.depth = c.depth)
      (Category.disjunction.parser last.position room ts) ((Walk.chain tokens .or n).run c) :=
  level.walk .disjunction h hr hn

theorem arguments_follows (level : Followed tokens last behind room)
    (h : At tokens last behind ts c) (hr : HasRoom room c) {k : Nat} (hk : ts.length ≤ k) {n : Nat}
    (hn : ts.length + 10 * room + 8 ≤ n) :
    Follows tokens last behind ts 0 (fun c' => c'.depth = c.depth)
      (Parser.arguments (Category.disjunction.parser last.position room) k ts)
      ((Walk.arguments tokens n).run c) := by
  induction k generalizing ts c n with
  | zero =>
    cases n with
    | zero => omega
    | succ n =>
      rw [Parser.arguments, map_eq_bind, Walk.arguments]
      exact (level.argument h hr (n := n) (by omega)).bind fun _ _ shorter => by omega
  | succ k ih =>
    cases n with
    | zero => omega
    | succ n =>
      rw [Parser.arguments, Walk.arguments]
      have argument := level.argument h hr (n := n) (by omega)
      refine argument.bind fun {e rest c'} there depth shorter => ?_
      cases rest with
      | nil =>
        dsimp only
        rw [there.run_ite_accept_of_ne _ _ (there.kind_ne_of_nil (by simp))]
        exact .pure there depth (Nat.zero_le _)
      | cons t rest =>
        dsimp only
        rw [List.length_cons] at shorter
        by_cases comma : t.kind = .comma
        · rw [if_pos comma, there.run_ite_accept _ _ comma]
          -- the argument and the comma have used tokens, which pay for the step taken
          have further := ih there.next (hr.of_depth depth) (n := n) (by omega) (by omega)
          refine further.bind fun there' depth' shorter' => ?_
          exact .pure there' (depth'.trans depth) (by dsimp only; omega)
        · rw [if_neg comma, there.run_ite_accept_of_ne _ _ comma]
          exact .pure there depth (by rw [List.length_cons]; omega)

theorem argumentList_follows (level : Followed tokens last behind room)
    (h : At tokens last behind ts c) (hr : HasRoom room c) {n : Nat}
    (hn : ts.length + 10 * room + 9 ≤ n) :
    Follows tokens last behind ts 0 (fun c' => c'.depth = c.depth)
      (Parser.argumentList (Category.disjunction.parser last.position room) ts)
      ((Walk.argumentList tokens n).run c) := by
  cases n with
  | zero => omega
  | succ n =>
    have arguments := arguments_follows level h hr (Nat.le_refl _) (Nat.le_of_succ_le_succ hn)
    rw [Walk.argumentList, run_bind_ok h.run_peek, Parser.argumentList]
    cases ts with
    | nil =>
      rw [if_neg (by simp), if_neg (by simp [h.stop])]
      exact arguments
    | cons t rest =>
      by_cases closing : t.kind = .rightParen
      · rw [if_pos (by simpa using closing), List.headD_cons, if_pos closing]
        exact .pure h rfl (Nat.le_refl _)
      · rw [if_neg (by simpa using closing), List.headD_cons, if_neg closing]
        exact arguments

section

variable (inner : ∀ d, room = d + 1 → Followed tokens last behind d)

include inner

/-- A call is read as its parser does, and the cursor stands behind its parenthesis. -/
theorem call_follows (h : At tokens last behind ts c) (hr : HasRoom room c) (name : Token) {n : Nat}
    (hn : ts.length + 10 * room + 2 ≤ n) :
    Follows tokens last behind ts 1 (fun c' => c'.depth = c.depth ∧ c'.Behind tokens .rightParen)
      (Parser.call last.position (below last.position room) name ts)
      ((Walk.call tokens name n).run c) := by
  cases n with
  | zero => omega
  | succ n =>
    rw [Walk.call]
    refine enter_follows h hr fun {d} hd there roomy => ?_
    rw [level_disjunction]
    have list := argumentList_follows (inner d hd) there roomy (n := n) (by omega)
    refine list.bind fun there' depth shorter => ?_
    exact close_follows there' depth (roomy.of_depth depth) shorter (by simp) _ _

/-- Behind a name comes a call, or else the rest of a path. -/
theorem named_follows (h : At tokens last behind ts c) (hr : HasRoom room c) {t : Token}
    (ht : t.kind = .identifier) {n : Nat} (hn : ts.length + 10 * room + 1 ≤ n) :
    Follows tokens last behind (t :: ts) 1 (fun c' => c'.depth = c.depth)
      (Parser.primary last.position (below last.position room) (t :: ts))
      ((do if ← accept tokens .leftParen then call tokens t n else path tokens t n :
        Walk Expr).run c) := by
  have path := path_follows h t (n := n) (by omega)
  cases ts with
  | nil =>
    rw [h.run_ite_accept_of_ne _ _ (h.kind_ne_of_nil (by simp))]
    simp only [Parser.primary, ht]
    exact path.mono (Nat.le_refl _) id
  | cons next rest =>
    by_cases paren : next.kind = .leftParen
    · rw [h.run_ite_accept _ _ paren]
      simp only [Parser.primary, ht, paren, if_true]
      rw [List.length_cons] at hn
      have call := call_follows inner h.next (hr.of_depth rfl) t (n := n) (by omega)
      exact call.mono (by rw [List.length_cons, List.length_cons]; omega) And.left
    · rw [h.run_ite_accept_of_ne _ _ paren]
      simp only [Parser.primary, ht, paren, if_false]
      exact path.mono (Nat.le_refl _) id

theorem primary_follows (h : At tokens last behind ts c) (hr : HasRoom room c) {n : Nat}
    (hn : ts.length + 10 * room + 1 ≤ n) :
    Follows tokens last behind ts 1 (fun c' => c'.depth = c.depth)
      (Parser.primary last.position (below last.position room) ts)
      ((Walk.primary tokens n).run c) := by
  cases n with
  | zero => omega
  | succ n =>
    rw [Walk.primary, run_bind_ok h.run_peek]
    cases ts with
    | nil =>
      have found : last.describe = Token.describe ⟨.eof, [], last.position⟩ := by
        simp only [Token.describe, h.stop]
      simp only [List.headD_nil, h.stop, Parser.primary, ← found]
      exact .refuse h
    | cons t rest =>
      -- a literal is read off the token alone
      have literal : ∀ e : Expr, Follows tokens last behind (t :: rest) 1
          (fun c' => c'.depth = c.depth) (.ok (e, rest))
          ((advance tokens >>= fun _ => pure e).run c) := by
        intro e
        rw [run_bind_ok h.run_advance]
        exact .pure h.next rfl (Nat.le_refl _)
      rw [List.length_cons] at hn
      rw [List.headD_cons]
      cases kind : t.kind with
      | leftParen =>
        simp only [Parser.primary, kind]
        rw [run_bind_ok h.run_advance]
        refine enter_follows h.next (hr.of_depth rfl) fun {d} hd there roomy => ?_
        rw [level_disjunction]
        -- the inside goes down a level; behind it the parenthesis is read and the depth put back
        have group := (inner d hd).argument there roomy (n := n) (by omega)
        refine group.bind fun there' depth shorter => ?_
        exact (close_follows there' depth (roomy.of_depth depth) (by rw [List.length_cons]; omega)
          (by simp) _ _).mono (Nat.le_refl _) And.left
      | identifier =>
        rw [run_bind_ok h.run_advance]
        exact named_follows inner h.next (hr.of_depth rfl) kind (by omega)
      | string | decimal =>
        simp only [Parser.primary, kind]
        exact literal _
      | integer =>
        simp only [Parser.primary, kind]
        rw [run_bind_ok h.run_advance]
        exact .ofExcept h.next rfl (Nat.le_refl _)
      | keyword word =>
        simp only [Parser.primary, kind]
        cases word with
        | true | false | null => exact literal _
        | _ => exact .refuse h
      | _ =>
        simp only [Parser.primary, kind]
        exact .refuse h

theorem comparison_follows (h : At tokens last behind ts c) (hr : HasRoom room c) {n : Nat}
    (hn : ts.length + 10 * room + 2 ≤ n) :
    Follows tokens last behind ts 1 (fun c' => c'.depth = c.depth)
      (Parser.comparison last.position (below last.position room) ts)
      ((Walk.comparison tokens n).run c) := by
  cases n with
  | zero => omega
  | succ n =>
    rw [Walk.comparison]
    have left := primary_follows inner h hr (n := n) (by omega)
    refine left.bind fun {left rest c'} there depth shorter => ?_
    rw [run_bind_ok there.run_peek]
    cases rest with
    | nil =>
      simp only [List.headD_nil, Parser.comparisonOf?, h.stop]
      exact .pure there depth shorter
    | cons t rest =>
      rw [List.headD_cons]
      dsimp only
      cases Parser.comparisonOf? t with
      | none => exact .pure there depth shorter
      | some operator =>
        dsimp only
        rw [run_bind_ok there.run_advance]
        rw [List.length_cons] at shorter
        -- the right side is at the same depth: only the symbol is between the two
        have right := primary_follows inner there.next (hr.of_depth depth) (n := n) (by omega)
        refine right.bind fun there' depth' shorter' => ?_
        exact .pure there' (depth'.trans depth) (by dsimp only; omega)

/-- A unary is read as its parser does; `not` goes down a level. -/
theorem unary_follows (h : At tokens last behind ts c) (hr : HasRoom room c) {n : Nat}
    (hn : ts.length + 10 * room + 3 ≤ n) :
    Follows tokens last behind ts 1 (fun c' => c'.depth = c.depth)
      (Parser.unary last.position (below last.position room) ts)
      ((Walk.unary tokens n).run c) := by
  cases n with
  | zero => omega
  | succ n =>
    have comparison := comparison_follows inner h hr (n := n) (by omega)
    rw [Walk.unary]
    cases ts with
    | nil =>
      rw [h.run_ite_accept_of_ne _ _ (h.kind_ne_of_nil (by simp))]
      exact comparison
    | cons t rest =>
      by_cases negated : t.kind = .keyword .not
      · rw [h.run_ite_accept _ _ negated, run_bind_ok h.run_previous, Parser.unary, if_pos negated]
        rw [List.length_cons] at hn
        refine enter_follows h.next (hr.of_depth rfl) fun {d} hd there roomy => ?_
        rw [level_unary]
        -- the level that was entered pays for the steps of the operand
        have operand := (inner d hd).walk .unary there roomy (n := n)
          (by simp only [Category.frames]; omega)
        refine operand.bind fun there' depth shorter => ?_
        refine leave_follows there' (roomy.of_depth depth) ?_ (by rw [List.length_cons]; omega) _
        rw [Cursor.at_depth, depth, Cursor.at_depth, Cursor.next_depth, Int.add_sub_cancel]
      · rw [h.run_ite_accept_of_ne _ _ negated, Parser.unary, if_neg negated]
        exact comparison

/-- A chain is read on as its parser does, a level down behind each connective. -/
theorem more_follows (k : Connective) (left : Expr) (h : At tokens last behind ts c)
    (hr : HasRoom room c) {n : Nat} (hn : ts.length + 10 * room + 1 ≤ n) :
    Follows tokens last behind ts 0 (fun _ => True) (more last.position room k left ts)
      ((Walk.more tokens k left n).run c) := by
  cases n with
  | zero => omega
  | succ n =>
    rw [Walk.more]
    cases ts with
    | nil =>
      rw [more_nil, h.run_ite_accept_of_ne _ _ (h.kind_ne_of_nil (by simp))]
      exact .pure h trivial (Nat.le_refl _)
    | cons t rest =>
      by_cases joined : t.kind = .keyword k.keyword
      · rw [h.run_ite_accept _ _ joined, run_bind_ok h.run_previous]
        rw [List.length_cons] at hn
        refine descend_follows h.next (hr.of_depth rfl) (fun hz => ?_) fun {d} hd there roomy => ?_
        · subst hz
          exact more_zero joined
        · subst hd
          -- the operand goes through one more routine than its category does
          obtain ⟨n, rfl⟩ := Nat.exists_eq_add_one.mpr (show 0 < n by omega)
          have frames := (Category.operand k).frames_le
          rw [more_succ joined, walk_operand]
          have level := inner d rfl
          have operand := level.walk (.operand k) there roomy (n := n) (by omega)
          refine operand.bind fun {right rest' c'} there' depth shorter => ?_
          have further := level.more k (.logical k t.position left right) there'
            (roomy.of_depth depth) (n := n + 1) (by omega)
          exact further.mono (by rw [List.length_cons]; omega) id
      · rw [more_of_ne joined, h.run_ite_accept_of_ne _ _ joined]
        exact .pure h trivial (Nat.le_refl _)

/-- A chain reads as much as its parser, and puts the depth back. -/
theorem chain_follows (k : Connective) (hr : HasRoom room c) {n : Nat}
    (hn : ts.length + 10 * room + (Category.operand k).frames ≤ n)
    (operand : Follows tokens last behind ts 1 (fun c' => c'.depth = c.depth)
      ((Category.operand k).parser last.position room ts)
      (((Category.operand k).walk tokens n).run c)) :
    Follows tokens last behind ts 1 (fun c' => c'.depth = c.depth)
      ((Category.chain k).parser last.position room ts)
      (((Category.chain k).walk tokens (n + 2)).run c) := by
  rw [walk_chain, Walk.chain, run_get_bind, parser_chain, walk_operand]
  refine operand.bind fun {left rest c'} there depth shorter => ?_
  dsimp only
  rw [← bind_pure (more last.position room k left rest)]
  have further := more_follows inner k left there (hr.of_depth depth) (n := n + 1) (by omega)
  refine further.bind fun there' _ shorter' => ?_
  unfold HasRoom at hr
  rw [run_bind_ok (run_setDepth _ _)]
  exact .pure (there'.at_ (by omega)) rfl (by omega)

/-- What the levels below do, the next one does. -/
theorem followed_above : Followed tokens last behind room := by
  -- a conjunction is the operand of a disjunction, so it comes first
  have conjunction : ∀ {ts : List Token} {c : Cursor} {n : Nat}, At tokens last behind ts c →
      HasRoom room c → ts.length + 10 * room + 5 ≤ n →
      Follows tokens last behind ts 1 (fun c' => c'.depth = c.depth)
        (Category.conjunction.parser last.position room ts)
        ((Category.conjunction.walk tokens n).run c) := by
    intro ts c n h hr hn
    obtain ⟨n, rfl⟩ := Nat.exists_eq_add_of_le' (show 2 ≤ n by omega)
    have hn' : ts.length + 10 * room + 3 ≤ n := by omega
    exact chain_follows inner .and hr hn' (unary_follows inner h hr hn')
  refine ⟨fun category ts c n h hr hn => ?_,
    fun k left ts c n h hr hn => more_follows inner k left h hr hn⟩
  cases category with
  | primary => exact primary_follows inner h hr hn
  | comparison => exact comparison_follows inner h hr hn
  | unary => exact unary_follows inner h hr hn
  | conjunction => exact conjunction h hr hn
  | disjunction =>
    rw [Category.frames] at hn
    obtain ⟨n, rfl⟩ := Nat.exists_eq_add_of_le' (show 2 ≤ n by omega)
    have hn' : ts.length + 10 * room + 5 ≤ n := by omega
    exact chain_follows inner .or hr hn' (conjunction h hr hn')

end

/-- **The descent follows the parsers**, whatever the list and however much room is left. -/
theorem followed (tokens : List Token) (last : Token) (behind : List Token) (room : Nat) :
    Followed tokens last behind room := by
  induction room with
  | zero => exact followed_above fun d hd => absurd hd (Nat.succ_ne_zero d).symm
  | succ room ih =>
    refine followed_above fun d hd => ?_
    cases hd
    exact ih

end

end PhotoQuery.Grammar
