import PhotoQuery.Expr.Descent
import PhotoQuery.Proofs.Outcome

/-!
# Token — where a cursor stands

A cursor stands at tokens of its list (`At`) if they come next and the first end of the list from
there on comes right behind them.  That is all that a walk can see of the list, and what a parser is
given.

A walk `Follows` a parser if it ends as the parser does: with the same value, and the cursor at the
tokens that the parser leaves, or with the same error.  In either case it has not gone deeper than
queries may nest, and it has not left the list.  A walk that is put together from walks that follow
parsers follows what is put together from the parsers (`Follows.bind`), so each routine is compared
with its parser alone.
-/

namespace PhotoQuery

/-- The cursor one token on. -/
def Cursor.next (c : Cursor) : Cursor := { c with current := c.current + 1 }

@[simp] theorem Cursor.next_current (c : Cursor) : c.next.current = c.current + 1 := rfl

@[simp] theorem Cursor.next_depth (c : Cursor) : c.next.depth = c.depth := rfl

/-- The cursor at another depth. -/
def Cursor.at (c : Cursor) (depth : Int) : Cursor := { c with depth, peak := max c.peak depth }

@[simp] theorem Cursor.at_depth (c : Cursor) (depth : Int) : (c.at depth).depth = depth := rfl

/-- The token that was read last is of the kind. -/
def Cursor.Behind (tokens : List Token) (kind : TokenKind) (c : Cursor) : Prop :=
  ∃ i t, c.current = i + 1 ∧ tokens[i]? = some t ∧ t.kind = kind

namespace Walk

/-! ### Running walks -/

section

variable {α β : Type} {c c' : Cursor}

/-- The second walk starts where the first one has ended, and only if it has not failed. -/
theorem run_bind (x : Walk α) (f : α → Walk β) (c : Cursor) :
    (x >>= f).run c = (x.run c).bind fun r => ExceptT.bindCont f r.1 r.2 := rfl

/-- Behind a walk that gives a value, the next walk goes on with it. -/
theorem run_bind_ok {x : Walk α} {f : α → Walk β} {a : α} (h : x.run c = some (.ok a, c')) :
    (x >>= f).run c = (f a).run c' := by
  rw [run_bind, h]
  rfl

/-- A walk that fails ends the whole walk, and leaves the cursor where it failed. -/
theorem run_bind_error {x : Walk α} {f : α → Walk β} {e : Halt}
    (h : x.run c = some (.error e, c')) : (x >>= f).run c = some (.error e, c') := by
  rw [run_bind, h]
  rfl

/-- A walk that runs out of steps leaves the whole walk without a result. -/
theorem run_bind_none {x : Walk α} {f : α → Walk β} (h : x.run c = none) :
    (x >>= f).run c = none := by
  rw [run_bind, h]
  rfl

theorem run_get_bind (f : Cursor → Walk β) (c : Cursor) :
    (get >>= f : Walk β).run c = (f c).run c := rfl

theorem run_set_bind (f : PUnit → Walk β) (c c' : Cursor) :
    (set c' >>= f : Walk β).run c = (f ⟨⟩).run c' := rfl

theorem run_setDepth (depth : Int) (c : Cursor) :
    (setDepth depth).run c = some (.ok (), c.at depth) := rfl

theorem run_leave (c : Cursor) : leave.run c = some (.ok (), c.at (c.depth - 1)) := rfl

/-- Going one level deeper, where that is not too deep, moves nothing but the depth. -/
theorem run_enter (position : Nat) (h : c.depth < maxNestingDepth) :
    (enter position).run c = some (.ok (), c.at (c.depth + 1)) := by
  rw [enter, run_get_bind, if_neg (by omega)]
  rfl

/-- At the greatest depth there is no way deeper, and the cursor stays as it is. -/
theorem run_enter_of_ge (position : Nat) (h : c.depth ≥ maxNestingDepth) :
    (enter position).run c = some (.error (.refused ⟨position, .nestedTooDeeply⟩), c) := by
  rw [enter, run_get_bind, if_pos h]
  rfl

theorem run_tokenAt {tokens : List Token} {i : Nat} {t : Token} (h : tokens[i]? = some t)
    (c : Cursor) : (tokenAt tokens i).run c = some (.ok t, c) := by
  rw [tokenAt, h]
  rfl

end

/-! ### Places -/

/-- The cursor stands at the tokens `ts`, and the end `last` is the first one behind it.  It has not
been too deep. -/
structure At (tokens : List Token) (last : Token) (behind ts : List Token) (c : Cursor) : Prop where
  place : tokens.drop c.current = ts ++ last :: behind
  inner : ∀ t ∈ ts, t.kind ≠ .eof
  stop : last.kind = .eof
  shallow : c.peak ≤ maxNestingDepth

variable {tokens : List Token} {last : Token} {behind ts rest : List Token} {t : Token}
  {c c' : Cursor}

namespace At

/-- What lies ahead in the list is what the cursor stands at, then the end, then what is behind
it. -/
theorem getElem? (h : At tokens last behind ts c) (i : Nat) :
    tokens[c.current + i]? = (ts ++ last :: behind)[i]? := by
  rw [← h.place, List.getElem?_drop]

/-- The cursor is at the first of its tokens, or at the end if there is none left. -/
theorem getElem?_current (h : At tokens last behind ts c) :
    tokens[c.current]? = some (ts.headD last) := by
  have first := h.getElem? 0
  cases ts <;> exact first

/-- The list is what the cursor has passed, its tokens, the end, and what is behind that. -/
theorem length_eq (h : At tokens last behind ts c) :
    tokens.length = c.current + ts.length + 1 + behind.length := by
  have lengths := congrArg List.length h.place
  simp only [List.length_drop, List.length_append, List.length_cons] at lengths
  omega

/-- Steps that are enough for the whole list are enough for the tokens ahead of a cursor. -/
theorem length_lt_enough (h : At tokens last behind ts c) {steps : Nat}
    (hs : enough tokens ≤ steps) : ts.length < steps := by
  have length := h.length_eq
  unfold enough at hs
  omega

/-- A cursor moves on over a token that is no end. -/
theorem next (h : At tokens last behind (t :: rest) c) : At tokens last behind rest c.next where
  place := by rw [Cursor.next_current, ← List.drop_drop, h.place]; rfl
  inner := fun t' ht => h.inner t' (List.mem_cons_of_mem t ht)
  stop := h.stop
  shallow := h.shallow

theorem at_ (h : At tokens last behind ts c) {depth : Int} (hd : depth ≤ maxNestingDepth) :
    At tokens last behind ts (c.at depth) where
  place := h.place
  inner := h.inner
  stop := h.stop
  shallow := Int.max_le.mpr ⟨h.shallow, hd⟩

/-- The cursor does not pass an end: none is nearer than the one behind `ts`. -/
theorem le_of_eof (h : At tokens last behind ts c) {i : Nat} (hi : c.current ≤ i) {t : Token}
    (there : tokens[i]? = some t) (ht : t.kind = .eof) : c.current + ts.length ≤ i := by
  refine Nat.le_of_not_lt fun nearer => ?_
  rw [← Nat.add_sub_cancel' hi, h.getElem?, List.getElem?_append_left (by omega)] at there
  exact h.inner t (List.mem_of_getElem? there) ht

/-- Peeking sees the next token, which is the end if no other is left. -/
theorem run_peek (h : At tokens last behind ts c) :
    (peek tokens).run c = some (.ok (ts.headD last), c) := by
  rw [peek, run_get_bind]
  exact run_tokenAt h.getElem?_current c

/-- Peeking over a token sees the one behind it. -/
theorem run_peekNext (h : At tokens last behind (t :: rest) c) :
    (peekNext tokens).run c = some (.ok (rest.headD last), c) := by
  have length := h.length_eq
  rw [List.length_cons] at length
  rw [peekNext, run_get_bind, Nat.min_eq_left (by omega)]
  exact run_tokenAt h.next.getElem?_current c

theorem run_advance (h : At tokens last behind (t :: rest) c) :
    (advance tokens).run c = some (.ok t, c.next) := by
  rw [advance, run_bind_ok h.run_peek, List.headD_cons, if_neg (h.inner _ List.mem_cons_self)]
  rfl

theorem run_previous (h : At tokens last behind (t :: rest) c) :
    (previous tokens).run c.next = some (.ok t, c.next) := by
  rw [previous, run_get_bind]
  exact run_tokenAt h.getElem?_current c.next

theorem run_accept (h : At tokens last behind (t :: rest) c) :
    (accept tokens t.kind).run c = some (.ok true, c.next) := by
  rw [accept, run_bind_ok h.run_peek, List.headD_cons, if_pos rfl, run_bind_ok h.run_advance]
  rfl

theorem run_accept_of_ne (h : At tokens last behind ts c) {kind : TokenKind}
    (hk : (ts.headD last).kind ≠ kind) : (accept tokens kind).run c = some (.ok false, c) := by
  rw [accept, run_bind_ok h.run_peek, if_neg hk]
  rfl

/-- With no token left, what comes next is the end, and of no other kind. -/
theorem kind_ne_of_nil (h : At tokens last behind [] c) {kind : TokenKind} (hk : kind ≠ .eof) :
    (List.headD [] last).kind ≠ kind :=
  fun found => hk (found.symm.trans h.stop)

section

variable {α : Type} {kind : TokenKind} (yes no : Walk α)

/-- A branch on the next kind goes the one way where it is of that kind, behind the token. -/
theorem run_ite_accept (h : At tokens last behind (t :: rest) c) (hk : t.kind = kind) :
    (do if ← accept tokens kind then yes else no : Walk α).run c = yes.run c.next := by
  rw [← hk, run_bind_ok h.run_accept, if_pos rfl]

theorem run_ite_accept_of_ne (h : At tokens last behind ts c) (hk : (ts.headD last).kind ≠ kind) :
    (do if ← accept tokens kind then yes else no : Walk α).run c = no.run c := by
  rw [run_bind_ok (h.run_accept_of_ne hk), if_neg Bool.false_ne_true]

end

end At

/-- Where a list ends in an end, a cursor stands somewhere in front of one. -/
theorem exists_at (closed : tokens.getLast?.any (·.kind = .eof)) (hc : c.current < tokens.length)
    (shallow : c.peak ≤ maxNestingDepth) : ∃ last behind ts, At tokens last behind ts c := by
  have ends : (tokens.drop c.current).getLast?.any (·.kind = .eof) := by
    rwa [List.getLast?_drop, if_neg (Nat.not_le.mpr hc)]
  obtain ⟨t, ht, eof⟩ := (Option.any_eq_true ..).mp ends
  have found : ((tokens.drop c.current).find? (·.kind = .eof)).isSome :=
    List.find?_isSome.mpr ⟨t, List.mem_of_getLast? ht, eof⟩
  obtain ⟨last, first⟩ := Option.isSome_iff_exists.mp found
  obtain ⟨stop, ts, behind, place, inner⟩ := List.find?_eq_some_iff_append.mp first
  exact ⟨last, behind, ts, place, fun t ht => by simpa using inner t ht, by simpa using stop,
    shallow⟩

/-! ### Walks beside parsers -/

/-- What comes of a walk is what comes of a parser: the same value, read from the front of `ts`,
which is at least `low` tokens shorter afterwards, and a cursor with the property `D` before the
rest; or the same error. -/
inductive Follows (tokens : List Token) (last : Token) (behind ts : List Token) (low : Nat)
    (D : Cursor → Prop) {α : Type} :
    Except (Located SyntaxError) (α × List Token) → Option (Except Halt α × Cursor) → Prop where
  | ok {a : α} {rest : List Token} {c : Cursor} (there : At tokens last behind rest c) (post : D c)
      (used : rest.length + low ≤ ts.length) :
      Follows tokens last behind ts low D (.ok (a, rest)) (some (.ok a, c))
  | error {e : Located SyntaxError} {c : Cursor} (shallow : c.peak ≤ maxNestingDepth) :
      Follows tokens last behind ts low D (.error e) (some (.error (.refused e), c))

namespace Follows

variable {α β : Type} {low low' : Nat} {D D' : Cursor → Prop}
  {x : Except (Located SyntaxError) (α × List Token)}

/-- What follows from a later place follows from an earlier one, of which it has used as much or
more. -/
theorem mono {y : Option (Except Halt α × Cursor)} (h : Follows tokens last behind rest low D x y)
    (hl : rest.length + low' ≤ ts.length + low) (hD : ∀ {c}, D c → D' c) :
    Follows tokens last behind ts low' D' x y := by
  cases h with
  | ok there post used => exact .ok there (hD post) (by omega)
  | error shallow => exact .error shallow

/-- Walks in a row follow parsers in a row.  The second walk need only do so from where the first
one may have ended. -/
theorem bind {whole : List Token} {walk : Walk α}
    {f : α × List Token → Except (Located SyntaxError) (β × List Token)}
    {g : α → Walk β} (h : Follows tokens last behind ts low D x (walk.run c))
    (hf : ∀ {a rest c'}, At tokens last behind rest c' → D c' → rest.length + low ≤ ts.length →
      Follows tokens last behind whole low' D' (f (a, rest)) ((g a).run c')) :
    Follows tokens last behind whole low' D' (x >>= f) ((walk >>= g).run c) := by
  generalize result : walk.run c = y at h
  cases h with
  | ok there post used =>
    rw [run_bind_ok result]
    exact hf there post used
  | error shallow =>
    rw [run_bind_error result]
    exact .error shallow

theorem pure {a : α} (h : At tokens last behind rest c) (post : D c)
    (used : rest.length + low ≤ ts.length) :
    Follows tokens last behind ts low D (.ok (a, rest)) ((Pure.pure a : Walk α).run c) :=
  .ok h post used

theorem refuse {position : Nat} {cause : SyntaxError} (h : At tokens last behind rest c) :
    Follows tokens last behind ts low D (.error ⟨position, cause⟩ :
      Except (Located SyntaxError) (α × List Token)) ((Walk.refuse position cause).run c) :=
  .error h.shallow

theorem map {walk : Walk α} {f : α → β} {g : α × List Token → β × List Token}
    (h : Follows tokens last behind ts low D x (walk.run c))
    (hg : ∀ a rest, g (a, rest) = (f a, rest)) :
    Follows tokens last behind ts low D (x.map g) ((walk >>= fun a => Pure.pure (f a)).run c) := by
  rw [Outcome.map_eq_bind]
  refine h.bind fun {a rest c'} there post used => ?_
  rw [hg]
  exact .pure there post used

/-- A result that needs no token follows itself. -/
theorem ofExcept {r : Except (Located SyntaxError) α} (h : At tokens last behind rest c)
    (post : D c) (used : rest.length + low ≤ ts.length) :
    Follows tokens last behind ts low D (r.map fun a => (a, rest)) ((Walk.ofExcept r).run c) := by
  cases r with
  | ok a => exact .ok h post used
  | error e => exact .error h.shallow

/-- A result that needs no token, and then what follows for each value that it may have. -/
theorem ofExcept_bind {whole : List Token} {r : Except (Located SyntaxError) β}
    {f : β → Except (Located SyntaxError) (α × List Token)} {g : β → Walk α}
    (h : At tokens last behind ts c)
    (hf : ∀ b, Follows tokens last behind whole low D (f b) ((g b).run c)) :
    Follows tokens last behind whole low D (r >>= f) ((Walk.ofExcept r >>= g).run c) := by
  cases r with
  | ok b => exact hf b
  | error e => exact .error h.shallow

end Follows

/-- A token that must come next is read or missed as its parser does. -/
theorem At.expect (h : At tokens last behind ts c) {kind : TokenKind} (hk : kind ≠ .eof)
    (cause : SyntaxError) :
    Follows tokens last behind ts 1 (fun c' => c' = c.next ∧ c'.Behind tokens kind)
      (Parser.expect last.position kind cause ts) ((Walk.expect tokens kind cause).run c) := by
  rw [Walk.expect, run_bind_ok h.run_peek]
  cases ts with
  | nil =>
    rw [if_neg (h.kind_ne_of_nil hk)]
    exact .refuse h
  | cons t rest =>
    rw [List.headD_cons]
    by_cases there : t.kind = kind
    · rw [Parser.expect, if_pos there, if_pos there, h.run_advance]
      exact .ok h.next ⟨rfl, c.current, t, rfl, h.getElem?_current, there⟩ (Nat.le_refl _)
    · rw [Parser.expect, if_neg there, if_neg there]
      exact .refuse h

end Walk

end PhotoQuery
