import PhotoQuery.Proofs.Grammar.Descent
import PhotoQuery.Query.Reader

/-!
# Query — what readers answer

A reader reads what the tokens in front of the first end form, and that end's position
(`Walk.query_answers`).  It begins by putting its cursor to the front, so nothing that an earlier
reading did is left; and what stands behind the first end is never looked at.
-/

namespace PhotoQuery

open Outcome Grammar

/-- The tokens of a list up to its first end, that end included. -/
def upToEnd : List Token → List Token
  | [] => []
  | t :: rest => if t.kind = .eof then [t] else t :: upToEnd rest

/-- A list goes up to its first end, whatever is behind that. -/
theorem upToEnd_append {ts : List Token} (inner : ∀ t ∈ ts, t.kind ≠ .eof) {last : Token}
    (stop : last.kind = .eof) (behind : List Token) :
    upToEnd (ts ++ last :: behind) = ts ++ [last] := by
  induction ts with
  | nil => exact if_pos stop
  | cons t ts ih =>
    rw [List.forall_mem_cons] at inner
    rw [List.cons_append, upToEnd, if_neg inner.1, ih inner.2, List.cons_append]

namespace Walk

variable {tokens : List Token} {last : Token} {behind ts : List Token} {c : Cursor}

theorem direction_follows (h : At tokens last behind ts c) :
    Follows tokens last behind ts 0 (fun _ => True) (Parser.direction ts)
      ((direction tokens).run c) := by
  unfold direction
  cases ts with
  | nil =>
    rw [h.run_ite_accept_of_ne _ _ (h.kind_ne_of_nil (by simp)),
      run_bind_ok (h.run_accept_of_ne (h.kind_ne_of_nil (by simp)))]
    exact .pure h trivial (Nat.le_refl _)
  | cons t rest =>
    by_cases descending : t.kind = .keyword .desc
    · rw [h.run_ite_accept _ _ descending, Parser.direction, if_pos descending]
      exact .pure h.next trivial (Nat.le_succ _)
    · rw [h.run_ite_accept_of_ne _ _ descending, Parser.direction, if_neg descending]
      by_cases ascending : t.kind = .keyword .asc
      · rw [← ascending, run_bind_ok h.run_accept, if_pos rfl]
        exact .pure h.next trivial (Nat.le_succ _)
      · rw [run_bind_ok (h.run_accept_of_ne ascending), if_neg ascending]
        exact .pure h trivial (Nat.le_refl _)

theorem sortBody_follows (h : At tokens last behind ts c) (position : Nat) {steps : Nat}
    (hs : ts.length < steps) :
    Follows tokens last behind ts 0 (fun _ => True) (Parser.sortBody last.position position ts)
      ((sortBody tokens position steps).run c) := by
  refine (h.expect (by simp) _).bind fun there _ shorter => ?_
  refine (segments_follows there (n := steps) (by omega)).bind fun there' _ shorter' => ?_
  refine (direction_follows there').bind fun there'' _ shorter'' => ?_
  exact .pure there'' trivial (by omega)

/-- A sort clause is read as its parser does; a bar without `sort` is not read. -/
theorem sortClause_follows (h : At tokens last behind ts c) {steps : Nat}
    (hs : ts.length < steps) :
    Follows tokens last behind ts 0 (fun _ => True) (Parser.sortClause last.position ts)
      ((sortClause tokens steps).run c) := by
  rw [sortClause, run_bind_ok h.run_peek]
  cases ts with
  | nil =>
    rw [if_neg (h.kind_ne_of_nil (by simp))]
    exact .pure h trivial (Nat.le_refl _)
  | cons bar ts =>
    rw [List.headD_cons]
    -- both look two tokens ahead and read nothing unless these are a bar and `sort`
    by_cases piped : bar.kind = .pipe
    · rw [if_pos piped, run_bind_ok h.run_peekNext]
      cases ts with
      | nil =>
        rw [if_neg (h.next.kind_ne_of_nil (by simp))]
        exact .pure h trivial (Nat.le_refl _)
      | cons word rest =>
        rw [List.headD_cons]
        by_cases sorting : word.kind = .keyword .sort
        · rw [if_pos sorting, run_bind_ok h.run_advance, run_bind_ok h.next.run_advance,
            Parser.sortClause, if_pos ⟨piped, sorting⟩]
          have shorter : rest.length < steps := by
            rw [List.length_cons, List.length_cons] at hs
            omega
          have body := sortBody_follows h.next.next word.position shorter
          exact (body.map fun _ _ => rfl).mono (by simp only [List.length_cons]; omega) id
        · rw [if_neg sorting, Parser.sortClause, if_neg fun both => sorting both.2]
          exact .pure h trivial (Nat.le_refl _)
    · rw [if_neg piped]
      have missing : Parser.sortClause last.position (bar :: ts) = .ok (none, bar :: ts) := by
        cases ts with
        | nil => rfl
        | cons word rest => exact if_neg fun both => piped both.1
      rw [missing]
      exact .pure h trivial (Nat.le_refl _)

theorem limitClause_follows (h : At tokens last behind ts c) :
    Follows tokens last behind ts 0 (fun _ => True) (Parser.limitClause last.position ts)
      ((limitClause tokens).run c) := by
  rw [limitClause]
  cases ts with
  | nil =>
    rw [h.run_ite_accept_of_ne _ _ (h.kind_ne_of_nil (by simp))]
    exact .pure h trivial (Nat.le_refl _)
  | cons bar rest =>
    by_cases piped : bar.kind = .pipe
    · rw [h.run_ite_accept _ _ piped, Parser.limitClause, if_pos piped]
      refine (h.next.expect (by simp) _).bind fun there _ shorter => ?_
      refine (there.expect (by simp) _).bind fun there' _ shorter' => ?_
      refine .ofExcept_bind there' fun limit => ?_
      exact .pure there' trivial (by rw [List.length_cons]; omega)
    · rw [h.run_ite_accept_of_ne _ _ piped, Parser.limitClause, if_neg piped]
      exact .pure h trivial (Nat.le_refl _)

/-- A selection is read as its parser does, from the depth that a reading starts at. -/
theorem selection_follows (h : At tokens last behind ts c) (hn : ts ≠ []) (hd : c.depth = 0)
    {steps : Nat} (hs : enough tokens ≤ steps) :
    Follows tokens last behind ts 0 (fun _ => True)
      (Parser.selection last.position maxNestingDepth ts) ((selection tokens steps).run c) := by
  rw [selection]
  cases ts with
  | nil => exact absurd rfl hn
  | cons t rest =>
    by_cases all : t.kind = .keyword .all
    · rw [h.run_ite_accept _ _ all, Parser.selection, if_pos all]
      exact .pure h.next trivial (Nat.le_succ _)
    · rw [h.run_ite_accept_of_ne _ _ all, Parser.selection, if_neg all, level_disjunction]
      -- a reading starts at depth zero, with room for all levels
      have roomy : HasRoom maxNestingDepth c := by
        rw [HasRoom, hd, Int.zero_add]
      have within : (t :: rest).length + 10 * maxNestingDepth + 7 ≤ steps := by
        have length := h.length_eq
        unfold enough at hs
        omega
      have disjunction :=
        (followed tokens last behind maxNestingDepth).walk .disjunction h roomy within
      exact (disjunction.map fun _ _ => rfl).mono (Nat.le_succ _) fun _ => trivial

/-! ### Readings -/

/-- A reading ends with the result, and the cursor anywhere. -/
def Answers {α : Type} (x : Except (Located SyntaxError) α)
    (y : Option (Except Halt α × Cursor)) : Prop := ∃ c, y = some (x.mapError .refused, c)

/-- A walk that follows its parser, with answers behind it, answers. -/
theorem Follows.answers {α β : Type} {low : Nat} {D : Cursor → Prop}
    {x : Except (Located SyntaxError) (α × List Token)} {walk : Walk α}
    {f : α × List Token → Except (Located SyntaxError) β} {g : α → Walk β}
    (h : Follows tokens last behind ts low D x (walk.run c))
    (hf : ∀ {a rest c'}, At tokens last behind rest c' → Answers (f (a, rest)) ((g a).run c')) :
    Answers (x >>= f) ((walk >>= g).run c) := by
  generalize result : walk.run c = y at h
  cases h with
  | ok there =>
    rw [run_bind_ok result]
    exact hf there
  | error =>
    rw [run_bind_error result]
    exact ⟨_, rfl⟩

/-- A reading ends as its parser does: with its query if all tokens are used. -/
theorem finish_answers (h : At tokens last behind ts c) (q : Query) :
    Answers (Parser.finish ts >>= fun _ => .ok q)
      ((do finish tokens; return q : Walk Query).run c) := by
  rw [finish, bind_assoc, run_bind_ok h.run_peek]
  cases ts with
  | nil =>
    rw [List.headD_nil, if_pos h.stop]
    exact ⟨c, rfl⟩
  | cons t rest =>
    rw [List.headD_cons, if_neg (h.inner t List.mem_cons_self)]
    exact ⟨c, rfl⟩

/-- A reading answers as the stream of the tokens in front of the first end does, wherever the
cursor was before it. -/
theorem query_answers (h : At tokens last behind ts (.start 0 0)) {steps : Nat}
    (hs : enough tokens ≤ steps) (c : Cursor) :
    Answers (TokenStream.query ⟨ts, last.position⟩) ((query tokens steps).run c) := by
  rw [query, run_set_bind, run_bind_ok h.run_peek]
  cases ts with
  | nil =>
    rw [List.headD_nil, if_pos h.stop]
    exact ⟨_, rfl⟩
  | cons t rest =>
    rw [List.headD_cons, if_neg (h.inner t List.mem_cons_self)]
    refine (selection_follows h (List.cons_ne_nil t rest) rfl hs).answers fun there => ?_
    refine (sortClause_follows there (there.length_lt_enough hs)).answers fun there' => ?_
    refine (limitClause_follows there').answers fun there'' => ?_
    exact finish_answers there'' _

end Walk

/-! ### Readers -/

namespace QueryReader

/-- A reader of the list, after some readings. -/
theorem answers_eq {tokens : List Token} {last : Token} {behind ts : List Token}
    (h : Walk.At tokens last behind ts (.start 0 0)) (reader : QueryReader)
    (hr : reader.tokens = tokens) {steps : Nat} (hs : Walk.enough tokens ≤ steps) (n : Nat) :
    reader.answers steps n = some (List.replicate n
      ((TokenStream.query ⟨ts, last.position⟩).mapError .refused)) := by
  induction n generalizing reader with
  | zero => rfl
  | succ n ih =>
    subst hr
    obtain ⟨c, result⟩ := Walk.query_answers h hs reader.cursor
    rw [answers, parse, result]
    show (answers steps { reader with cursor := c } n >>= fun rest => some (_ :: rest)) = _
    rw [ih { reader with cursor := c } rfl]
    rfl

section

variable {tokens : List Token} {reader : QueryReader}

/-- Only an empty list, and one whose last token is no end, have no reader. -/
theorem ofTokens?_eq_none_iff :
    ofTokens? tokens = none ↔
      tokens = [] ∨ ∃ last, tokens.getLast? = some last ∧ last.kind ≠ .eof := by
  have unended : ofTokens? tokens = none ↔ ¬ tokens.getLast?.any (·.kind = .eof) := by
    unfold ofTokens?
    split <;> simp [*]
  rw [unended]
  cases ends : tokens.getLast? with
  | none => simp [List.getLast?_eq_none_iff.mp ends]
  | some last =>
    have nonempty : tokens ≠ [] := fun empty => by simp [empty] at ends
    simp [nonempty]

theorem tokens_of_ofTokens? (h : ofTokens? tokens = some reader) : reader.tokens = tokens := by
  unfold ofTokens? at h
  split at h
  · cases h
    rfl
  · cases h

/-- A reader stands at its list's front, and there is an end ahead. -/
theorem exists_at (reader : QueryReader) :
    ∃ last behind ts, Walk.At reader.tokens last behind ts (.start 0 0) := by
  refine Walk.exists_at reader.closed (List.length_pos_iff.mpr fun empty => ?_) (by decide)
  have closed := reader.closed
  rw [empty] at closed
  cases closed

/-- What readers read is the stream that the list is for the grammar. -/
theorem stream_eq {last : Token} {behind ts : List Token}
    (h : Walk.At reader.tokens last behind ts (.start 0 0)) :
    TokenStream.ofTokens? reader.tokens = some ⟨ts, last.position⟩ := by
  have whole : reader.tokens = ts ++ last :: behind := h.place
  obtain ⟨final, ends, stop⟩ := (Option.any_eq_true ..).mp reader.closed
  have found : reader.tokens.find? (·.kind = .eof) = some last :=
    List.find?_eq_some_iff_append.mpr
      ⟨by simpa using h.stop, ts, behind, whole, by simpa using h.inner⟩
  have front : reader.tokens.takeWhile (·.kind ≠ .eof) = ts := by
    rw [whole, List.takeWhile_append_of_pos (by simpa using h.inner),
      List.takeWhile_cons_of_neg (by simpa using h.stop), List.append_nil]
  rw [TokenStream.ofTokens?, ends, found, front]
  exact if_pos (by simpa using stop)

end

/-- **Readers are total, and readings leave no trace.**  There is a reader for a list unless it is
empty or its last token is no end.  Given enough steps, however many, any number of readings all
end, without a look outside the list, and with the result that the stream of the list has; and
readers of lists that are the same up to their first ends answer the same. -/
theorem total_reentrant (tokens : List Token) :
    (ofTokens? tokens = none ↔
      tokens = [] ∨ ∃ last, tokens.getLast? = some last ∧ last.kind ≠ .eof) ∧
    ∀ reader, ofTokens? tokens = some reader →
      ∃ outcome : Except (Located SyntaxError) Query,
        (TokenStream.ofTokens? tokens).map (·.query) = some outcome ∧
        (∀ steps ≥ Walk.enough tokens, ∀ n,
          reader.answers steps n = some (List.replicate n (outcome.mapError .refused))) ∧
        ∀ tokens' reader', ofTokens? tokens' = some reader' → upToEnd tokens' = upToEnd tokens →
          ∀ steps ≥ Walk.enough tokens', ∀ n,
            reader'.answers steps n = some (List.replicate n (outcome.mapError .refused)) := by
  refine ⟨ofTokens?_eq_none_iff, fun reader made => ?_⟩
  obtain rfl := tokens_of_ofTokens? made
  obtain ⟨last, behind, ts, h⟩ := exists_at reader
  refine ⟨_, congrArg _ (stream_eq h), fun steps hs n => answers_eq h reader rfl hs n, ?_⟩
  intro tokens' reader' made' same steps hs n
  obtain rfl := tokens_of_ofTokens? made'
  obtain ⟨last', behind', ts', h'⟩ := exists_at reader'
  have whole : reader.tokens = ts ++ last :: behind := h.place
  have whole' : reader'.tokens = ts' ++ last' :: behind' := h'.place
  rw [whole, whole', upToEnd_append h.inner h.stop, upToEnd_append h'.inner h'.stop] at same
  obtain ⟨rfl, eq⟩ := List.append_inj' same rfl
  cases eq
  exact answers_eq h' reader' rfl hs n

/-- `x and`, then an end, breaks off at that end each time, whatever stands behind it. -/
theorem total_reentrant_broken_off :
    let front : List Token :=
      [⟨.identifier, .ofString "x", 0⟩, ⟨.keyword .and, .ofString "and", 2⟩, ⟨.eof, [], 5⟩]
    let e : Located SyntaxError := ⟨5, .expectedExpression (.ofString "end of expression")⟩
    ∃ reader reader',
      ofTokens? (front ++ [⟨.rightParen, .ofString ")", 7⟩, ⟨.eof, [], 8⟩]) = some reader ∧
        ofTokens? front = some reader' ∧
        reader.answers 3000 2 = some [.error (.refused e), .error (.refused e)] ∧
        reader'.answers 3000 2 = some [.error (.refused e), .error (.refused e)] := by
  intro front e
  obtain ⟨outcome, stream, again, same⟩ :=
    (total_reentrant (front ++ [⟨.rightParen, .ofString ")", 7⟩, ⟨.eof, [], 8⟩])).2 _ rfl
  have refused : outcome = .error e := Option.some.inj (stream.symm.trans rfl)
  subst refused
  exact ⟨_, _, rfl, rfl, again 3000 (by decide) 2, same front _ rfl rfl 3000 (by decide) 2⟩

end QueryReader

end PhotoQuery
