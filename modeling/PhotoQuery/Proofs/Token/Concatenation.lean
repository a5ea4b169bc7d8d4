import PhotoQuery.Proofs.Token.Boundary

/-!
# Token — sources one behind the other

Two sources with blanks between them are read as the one and then the other (`tokenize_append`).  A
run stays what it is when the text behind it goes on with a barrier (`Run.append`), it can be moved
to another place (`Run.shift`), and a run that starts where another one ends goes on with it
(`Run.trans`).  The blanks are the barrier: a lexeme that has ended in front of them is a longest
one whatever comes behind them.
-/

namespace PhotoQuery

open Text

/-- The token, so many units further on. -/
def Token.shift (n : Nat) (t : Token) : Token := { t with position := t.position + n }

/-! ### Runs -/

section

variable {position middle stop : Nat} {text between left more : Text} {tokens tokens' : List Token}

/-- A run that starts where another one has stopped goes on with it. -/
theorem Run.trans (h : Run position text tokens middle between)
    (h' : Run middle between tokens' stop left) :
    Run position text (tokens ++ tokens') stop left := by
  induction h with
  | refl => exact h'
  | blank hu _ ih => exact .blank hu (ih h')
  | lexeme hl _ ih => exact .lexeme hl (ih h')

/-- In front of a barrier a run finds what it finds in front of nothing. -/
theorem Run.append (h : Run position text tokens stop left) (hm : Barrier more) :
    Run position (text ++ more) tokens stop (left ++ more) := by
  induction h with
  | refl => exact .refl _ _
  | blank hu _ ih => exact .blank hu ih
  | lexeme hl _ ih =>
    rw [List.append_assoc]
    exact .lexeme (hl.append hm) ih

/-- The same text is read the same way further on. -/
theorem Run.shift (h : Run position text tokens stop left) (n : Nat) :
    Run (position + n) text (tokens.map (.shift n)) (stop + n) left := by
  induction h with
  | refl => exact .refl _ _
  | blank hu _ ih =>
    rw [Nat.add_right_comm] at ih
    exact .blank hu ih
  | lexeme hl _ ih =>
    rw [Nat.add_right_comm] at ih
    exact .lexeme hl ih

/-- A run goes over blanks and finds nothing. -/
theorem Run.blanks {blanks : Text} (hb : ∀ u ∈ blanks, isBlank u) (position : Nat) (rest : Text) :
    Run position (blanks ++ rest) [] (position + blanks.length) rest := by
  induction blanks generalizing position with
  | nil => exact .refl _ _
  | cons u blanks ih =>
    rw [List.forall_mem_cons] at hb
    have behind := ih hb.2 (position + 1)
    rw [Nat.add_assoc, Nat.add_comm 1] at behind
    exact .blank hb.1 behind

end

/-! ### Sources -/

/-- Behind a source and blanks, a run goes on as it does in a source of its own. -/
theorem Run.behind {a blanks b left : Text} {body tokens : List Token} {stop : Nat}
    (ha : Run 0 a body a.length []) (hne : blanks ≠ []) (hb : ∀ u ∈ blanks, isBlank u)
    (h : Run 0 b tokens stop left) :
    Run 0 (a ++ blanks ++ b) (body ++ tokens.map (.shift (a ++ blanks).length))
      (stop + (a ++ blanks).length) left := by
  obtain ⟨u, others, rfl⟩ := List.exists_cons_of_ne_nil hne
  have barrier : Barrier (u :: others ++ b) := barrier_blank (hb u List.mem_cons_self) _
  have first := ha.append barrier
  have second := h.shift (a ++ u :: others).length
  rw [Nat.zero_add, List.length_append] at second
  rw [List.append_assoc, List.length_append]
  exact first.trans ((Run.blanks hb a.length b).trans second)

/-- **Sources with blanks between them** are read one behind the other: the tokens are those of the
first without its end, and then those of the second, further on.  If the second has none, it fails
as it does alone, further on. -/
theorem tokenize_append {a blanks : Text} {tokens : List Token} (ha : tokenize a = .ok tokens)
    (hne : blanks ≠ []) (hb : ∀ u ∈ blanks, isBlank u) (b : Text) :
    (∀ more, tokenize b = .ok more → tokenize (a ++ blanks ++ b) =
      .ok (tokens.dropLast ++ more.map (.shift (a ++ blanks).length))) ∧
    ∀ e, tokenize b = .error e → tokenize (a ++ blanks ++ b) =
      .error ⟨e.position + (a ++ blanks).length, e.cause⟩ := by
  obtain ⟨body, run, rfl⟩ := tokenize_eq_ok.mp ha
  refine ⟨fun more h => ?_, fun e h => ?_⟩
  · obtain ⟨body', run', rfl⟩ := tokenize_eq_ok.mp h
    have whole := run.behind hne hb run'
    have length : b.length + (a ++ blanks).length = (a ++ blanks ++ b).length := by
      simp only [List.length_append]
      omega
    rw [length] at whole
    rw [tokenize_of_run whole, List.dropLast_concat, List.map_append, List.append_assoc, ← length]
    rfl
  · obtain ⟨body', u, rest, run', hu, stuck⟩ := tokenize_eq_error.mp h
    exact tokenize_of_stopsAt ⟨_, u, rest, run.behind hne hb run', hu, stuck⟩

/-- `iso <` and, behind a tab and an ideographic space, `= 5.` are not `iso <= 5.`: the second
source fails at its first unit.  With `5.` there, the point is a token of its own. -/
theorem tokenize_append_iso :
    let a := ofString "iso <"
    let blanks := ofString "\t\u3000"
    let tokens : List Token := [⟨.identifier, ofString "iso", 0⟩,
      ⟨.comparison .less, ofString "<", 4⟩, ⟨.eof, [], 5⟩]
    tokenize a = .ok tokens ∧ blanks ≠ [] ∧ (∀ u ∈ blanks, isBlank u) ∧
      tokenize (a ++ blanks ++ ofString "= 5.") = .error ⟨7, .unexpectedUnit (unit '=')⟩ ∧
      tokenize (a ++ blanks ++ ofString "5.") = .ok
        [⟨.identifier, ofString "iso", 0⟩, ⟨.comparison .less, ofString "<", 4⟩,
          ⟨.integer, ofString "5", 7⟩, ⟨.dot, ofString ".", 8⟩, ⟨.eof, [], 9⟩] := by
  intro a blanks tokens
  have ha : tokenize a = .ok tokens :=
    congrArg Scan.result (by decide +kernel : Scan.ofText a = ⟨tokens, none⟩)
  have failed : tokenize (ofString "= 5.") = .error ⟨0, .unexpectedUnit (unit '=')⟩ :=
    congrArg Scan.result (by decide +kernel :
      Scan.ofText (ofString "= 5.") = ⟨[], some ⟨0, .unexpectedUnit (unit '=')⟩⟩)
  have read : tokenize (ofString "5.") =
      .ok [⟨.integer, ofString "5", 0⟩, ⟨.dot, ofString ".", 1⟩, ⟨.eof, [], 2⟩] :=
    congrArg Scan.result (by decide +kernel : Scan.ofText (ofString "5.") =
      ⟨[⟨.integer, ofString "5", 0⟩, ⟨.dot, ofString ".", 1⟩, ⟨.eof, [], 2⟩], none⟩)
  have hne : blanks ≠ [] := by decide
  have hb : ∀ u ∈ blanks, isBlank u := by
    have all : blanks.all isBlank := by decide
    simpa using all
  exact ⟨ha, hne, hb, (tokenize_append ha hne hb _).2 _ failed,
    (tokenize_append ha hne hb _).1 _ read⟩

end PhotoQuery
