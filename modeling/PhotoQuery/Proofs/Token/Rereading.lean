import PhotoQuery.Proofs.Token.Layout

/-!
# Token — reading more than once

A scanner can be asked to read its source and to list the tokens that the last reading found, in any
order and any number of times.  Reading moves a position along the source, and goes through a run as
the tokens of the source do (`Run.readOn`); because it starts by going back to the front and letting
go of the tokens, it finds the same wherever the reading before has stopped (`Scanner.tokenize_eq`).

What it has found is never garbled: after a reading that failed, the tokens are those of the source
cut off where it failed (`StopsAt.front`), because a longest lexeme is still one when less stands
behind it (`Longest.cut`).

`Remembers` says what a scanner holds after some calls.  Each call keeps it (`Remembers.call`), so
it holds all along, and every answer is the right one (`Scanner.answers_correct`).
-/

namespace PhotoQuery

open Text

/-! ### Reading with a position -/

namespace Scanner

variable {scanner : Scanner} {u : CodeUnit} {text rest : Text}

/-- At the end of the source, a scanner finds its end and stops. -/
theorem readOn_nil (h : scanner.source.drop scanner.position = []) :
    scanner.readOn = (none, scanner.found ⟨.eof, [], scanner.source.length⟩ scanner.position) := by
  rw [readOn]
  split
  next => rfl
  next front => rw [h] at front; cases front

/-- At a unit, a scanner goes over a blank, finds a lexeme, or stops for an error. -/
theorem readOn_cons (h : scanner.source.drop scanner.position = u :: rest) :
    scanner.readOn =
      if isBlank u then readOn { scanner with position := scanner.position + 1 }
      else
        match lexeme u rest with
        | .error cause => (some ⟨scanner.position, cause⟩, scanner.stopped cause)
        | .ok l => readOn (scanner.found ⟨l.kind, l.value, scanner.position⟩
            (scanner.position + 1 + (l.length - 1))) := by
  rw [readOn]
  split
  next front => rw [h] at front; cases front
  next front =>
    obtain ⟨rfl, rfl⟩ := List.cons.inj (h.symm.trans front)
    rfl

/-- Where a longest lexeme stands, a scanner finds it and goes on behind it. -/
theorem readOn_longest {kind : TokenKind} {value : Text}
    (h : scanner.source.drop scanner.position = text ++ rest) (hl : Longest kind value text rest) :
    scanner.readOn = readOn (scanner.found ⟨kind, value, scanner.position⟩
      (scanner.position + text.length)) := by
  obtain ⟨u, tail, rfl, hu, read⟩ := hl.found
  rw [readOn_cons h]
  simp only [hu, List.append_eq, read, Bool.false_eq_true, if_false, List.length_cons,
    Nat.add_sub_cancel]
  rw [Nat.add_assoc, Nat.add_comm 1]

/-- Where no lexeme starts, a scanner stops, with the tokens that it has. -/
theorem readOn_stuck {cause : LexicalError}
    (h : scanner.source.drop scanner.position = u :: rest) (hu : isBlank u = false)
    (stuck : Stuck u rest cause) :
    scanner.readOn = (some ⟨scanner.position, cause⟩, scanner.stopped cause) := by
  rw [readOn_cons h]
  simp only [hu, lexeme_eq_error_iff.mpr stuck, Bool.false_eq_true, if_false]

theorem source_stopped (scanner : Scanner) (cause : LexicalError) :
    (scanner.stopped cause).source = scanner.source := by
  cases cause <;> rfl

theorem tokens_stopped (scanner : Scanner) (cause : LexicalError) :
    (scanner.stopped cause).tokens = scanner.tokens := by
  cases cause <;> rfl

end Scanner

/-- A scanner at the start of a run goes through it, finds its tokens and goes on from its end. -/
theorem Run.readOn {source : Text} {position stop : Nat} {text left : Text} {tokens : List Token}
    (h : Run position text tokens stop left) (before : List Token)
    (hs : source.drop position = text) :
    Scanner.readOn ⟨source, position, before⟩ =
      Scanner.readOn ⟨source, stop, before ++ tokens⟩ := by
  induction h generalizing before with
  | refl => rw [List.append_nil]
  | @blank position stop u rest left tokens hu _ ih =>
    rw [Scanner.readOn_cons hs, if_pos hu]
    refine ih before ?_
    rw [← List.drop_drop, hs]
    rfl
  | @lexeme position stop kind value text rest left tokens hl _ ih =>
    rw [Scanner.readOn_longest hs hl]
    refine (ih (before ++ [⟨kind, value, position⟩]) ?_).trans ?_
    · rw [← List.drop_drop, hs, List.drop_left]
    · rw [List.append_assoc]
      rfl

/-- **Reading again is reading afresh.**  Wherever the last reading has left the position, and
whatever it has found, the next one goes as the source does and finds what is found in it. -/
theorem Scanner.tokenize_eq (scanner : Scanner) :
    scanner.tokenize.1 = PhotoQuery.tokenize scanner.source ∧
      scanner.tokenize.2.source = scanner.source ∧
      scanner.tokenize.2.tokens = (Scan.ofText scanner.source).tokens := by
  rcases maximalMunch_or_stopsAt scanner.source with ⟨tokens, body, run, -⟩ | ⟨e, stops⟩
  · have read := (run.readOn [] rfl).trans (readOn_nil (List.drop_length))
    rw [PhotoQuery.tokenize, Scan.ofText, run.scan, Scan.ofTextAt.eq_def, tokenize, read]
    exact ⟨rfl, rfl, rfl⟩
  · obtain ⟨body, u, rest, run, hu, stuck⟩ := stops
    have read := (run.readOn [] rfl).trans (readOn_stuck (run.drop_stop rfl) hu stuck)
    rw [PhotoQuery.tokenize, Scan.ofText, run.scan, Scan.ofTextAt_stuck hu stuck, tokenize, read]
    refine ⟨rfl, source_stopped _ _, ?_⟩
    rw [tokens_stopped, List.nil_append, List.append_nil]

/-! ### What a reading leaves behind -/

/-- The tokens that a reading of the source leaves behind: those of the source, or, if it has none,
those of the part in front of the error, without their end. -/
inductive Kept (source : Text) : List Token → Prop where
  | whole {tokens : List Token} (h : tokenize source = .ok tokens) : Kept source tokens
  | front {e : Located LexicalError} {tokens : List Token} (h : tokenize source = .error e)
      (read : tokenize (source.take e.position) = .ok (tokens ++ [⟨.eof, [], e.position⟩])) :
      Kept source tokens

/-- A longest lexeme is still one when less stands behind it. -/
theorem Longest.cut {kind : TokenKind} {value text rest more : Text}
    (h : Longest kind value text (rest ++ more)) : Longest kind value text rest := by
  refine ⟨h.spells, fun spells before => h.length_le spells (before.trans ?_)⟩
  rw [← List.append_assoc]
  exact List.prefix_append ..

/-- A run needs no more of the text than it leads through. -/
theorem Run.cut {position stop : Nat} {text left : Text} {tokens : List Token}
    (h : Run position text tokens stop left) :
    ∃ front, text = front ++ left ∧ Run position front tokens stop [] := by
  induction h with
  | refl => exact ⟨[], rfl, .refl _ _⟩
  | blank hu _ ih =>
    obtain ⟨front, rfl, run⟩ := ih
    exact ⟨_ :: front, rfl, .blank hu run⟩
  | lexeme hl _ ih =>
    obtain ⟨front, rfl, run⟩ := ih
    exact ⟨_ ++ front, (List.append_assoc ..).symm, .lexeme hl.cut run⟩

/-- A source that cannot be read can be read up to there, and these are the tokens found. -/
theorem StopsAt.front {source : Text} {e : Located LexicalError} (h : StopsAt source e) :
    ∃ body, Scan.ofText source = ⟨body, some e⟩ ∧
      tokenize (source.take e.position) = .ok (body ++ [⟨.eof, [], e.position⟩]) := by
  obtain ⟨body, u, rest, run, hu, stuck⟩ := h
  have found : Scan.ofText source = ⟨body, some e⟩ := by
    rw [Scan.ofText, run.scan, Scan.ofTextAt_stuck hu stuck, List.append_nil]
  obtain ⟨front, rfl, cut⟩ := run.cut
  have stop : e.position = front.length := by simpa using cut.stop_eq
  rw [stop] at cut ⊢
  rw [List.take_left]
  exact ⟨body, found, tokenize_of_run cut⟩

/-- The tokens that reading a source finds are the ones that it leaves behind. -/
theorem kept_scan (source : Text) : Kept source (Scan.ofText source).tokens := by
  rcases maximalMunch_or_stopsAt source with ⟨tokens, body, run, rfl⟩ | ⟨e, stops⟩
  · have found : (Scan.ofText source).tokens = body ++ [⟨.eof, [], source.length⟩] := by
      rw [Scan.ofText, run.scan, Scan.ofTextAt.eq_def]
    rw [found]
    exact .whole (tokenize_of_run run)
  · obtain ⟨body, found, front⟩ := stops.front
    rw [found]
    exact .front (tokenize_of_stopsAt stops) front

/-! ### Calls -/

namespace Scanner

/-- What a scanner can be asked for. -/
inductive Call where
  | read
  | list
deriving DecidableEq

/-- What a scanner answers: how reading went, or the tokens that it holds. -/
inductive Answer where
  | read (result : Except (Located LexicalError) (List Token))
  | list (tokens : List Token)

/-- One call: the answer, and the scanner after it. -/
def call (scanner : Scanner) : Call → Answer × Scanner
  | .read => (.read scanner.tokenize.1, scanner.tokenize.2)
  | .list => (.list scanner.tokens, scanner)

/-- The answers to some calls, one after the other. -/
def answers (scanner : Scanner) : List Call → List Answer
  | [] => []
  | c :: calls => (scanner.call c).1 :: answers (scanner.call c).2 calls

/-- The right answer to a call behind some others: every reading goes as the source does, and the
tokens are none before the first reading and the same after all of them. -/
inductive Correct (source : Text) (past : List Call) : Call → Answer → Prop where
  | read : Correct source past .read (.read (PhotoQuery.tokenize source))
  | fresh (h : .read ∉ past) : Correct source past .list (.list [])
  | kept {tokens : List Token} (h : .read ∈ past) (kept : Kept source tokens) :
      Correct source past .list (.list tokens)

/-- What a scanner of the source holds after some calls. -/
structure Remembers (source : Text) (past : List Call) (scanner : Scanner) : Prop where
  source_eq : scanner.source = source
  fresh : .read ∉ past → scanner.tokens = []
  kept : .read ∈ past → Kept source scanner.tokens

section

variable {source : Text} {past : List Call} {scanner : Scanner}

/-- A scanner that holds what it should answers the next call correctly. -/
theorem Remembers.correct (h : Remembers source past scanner) (c : Call) :
    Correct source past c (scanner.call c).1 := by
  cases c with
  | read =>
    rw [← h.source_eq]
    show Correct scanner.source past .read (.read scanner.tokenize.1)
    rw [scanner.tokenize_eq.1]
    exact .read
  | list =>
    by_cases read : .read ∈ past
    · exact .kept read (h.kept read)
    · have nothing : Correct source past .list (.list []) := .fresh read
      rw [← h.fresh read] at nothing
      exact nothing

/-- A call leaves a scanner with what it should hold then. -/
theorem Remembers.call (h : Remembers source past scanner) (c : Call) :
    Remembers source (past ++ [c]) (scanner.call c).2 := by
  cases c with
  | read =>
    obtain ⟨-, sameSource, found⟩ := scanner.tokenize_eq
    refine ⟨sameSource.trans h.source_eq, fun never => absurd (by simp) never, fun _ => ?_⟩
    rw [← h.source_eq]
    exact found ▸ kept_scan scanner.source
  | list =>
    -- listing the tokens is no reading, and changes nothing
    refine ⟨h.source_eq, fun never => h.fresh ?_, fun read => h.kept ?_⟩
    · simpa using never
    · simpa using read

/-- What holds of the calls so far holds of all that come behind them. -/
theorem Remembers.answers (h : Remembers source past scanner) (calls : List Call) {i : Nat}
    (hi : i < calls.length) : ∃ answer, (scanner.answers calls)[i]? = some answer ∧
      Correct source (past ++ calls.take i) (calls.get ⟨i, hi⟩) answer := by
  induction calls generalizing past scanner i with
  | nil => cases hi
  | cons c calls ih =>
    cases i with
    | zero =>
      refine ⟨_, rfl, ?_⟩
      rw [List.take_zero, List.append_nil]
      exact h.correct c
    | succ i =>
      obtain ⟨answer, there, correct⟩ := ih (h.call c) (Nat.lt_of_succ_lt_succ hi)
      rw [List.append_assoc] at correct
      exact ⟨answer, there, correct⟩

end

theorem length_answers (scanner : Scanner) (calls : List Call) :
    (scanner.answers calls).length = calls.length := by
  induction calls generalizing scanner with
  | nil => rfl
  | cons c calls ih => rw [answers, List.length_cons, ih, List.length_cons]

/-- **A scanner answers every call correctly**, whatever came before it, also readings that failed;
and where a reading fails, the part of the source in front of the error can be read. -/
theorem answers_correct (source : Text) (calls : List Call) :
    (answers { source } calls).length = calls.length ∧
      (∀ i (hi : i < calls.length), ∃ answer, (answers { source } calls)[i]? = some answer ∧
        Correct source (calls.take i) (calls.get ⟨i, hi⟩) answer) ∧
      ∀ e, PhotoQuery.tokenize source = .error e →
        ∃ tokens, PhotoQuery.tokenize (source.take e.position) = .ok tokens := by
  have fresh : Remembers source [] { source } :=
    ⟨rfl, fun _ => rfl, fun read => absurd read List.not_mem_nil⟩
  refine ⟨length_answers _ calls, fun i hi => ?_, fun e failed => ?_⟩
  · exact fresh.answers calls hi
  · obtain ⟨body, -, front⟩ := (tokenize_eq_error.mp failed).front
    exact ⟨_, front⟩

example : (Scanner.call { source := ofString "iso == 'x" } .read).2.tokens =
    [⟨.identifier, ofString "iso", 0⟩, ⟨.comparison .equal, ofString "==", 4⟩] := by
  decide +kernel

end Scanner

end PhotoQuery
