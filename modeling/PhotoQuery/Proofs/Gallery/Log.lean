import PhotoQuery.Proofs.Gallery.Failure
import PhotoQuery.Proofs.Query.Failure

/-!
# Gallery — what a gallery logs

`Resolved.selecting` is a selection as it takes place: it looks at the debug flag before each line,
logs the line at once, and logs the error of a filter before it fails for it.  Each of its steps
ends the same whether it logs or not, and leaves its notes behind what is logged already
(`Resolved.Leaves`).  So it is the same to take notes, and to look at the flag when all is over
(`Resolved.run_selecting`), and logging never changes what a gallery shows or what it fails for.

What is logged begins with the filter, or says that there is none (`Options.Opens`).  Of a filter
that is refused nothing else is logged but its error, in full.
-/

namespace PhotoQuery.Gallery

open Text Outcome

/-! ### Logging step by step -/

/-- Steps that may fail, and log lines whether they fail or not. -/
abbrev Logging := ExceptT Failure (StateM (List Text))

/-- The note is logged at once, if the gallery logs. -/
def Resolved.tell (options : Resolved) (note : Note) : Logging Unit :=
  if options.debug then modify (· ++ [note.line]) else pure ()

/-- The query of a filter; an error is logged before it is passed on. -/
def Resolved.compileFilter (options : Resolved) (filter : Text) : Logging CompiledQuery :=
  match CompiledQuery.ofSource filter with
  | .ok q => pure q
  | .error problem => do
    options.tell (.invalidFilter (problem.detail filter))
    throw ⟨problem, filter⟩

/-- A selection that logs as it goes. -/
def Resolved.selecting {α : Type} (options : Resolved) (photo : α → Image) (site folder : List α) :
    Logging (List α) :=
  match options.filter with
  | none => do
    options.tell (.noFilter folder.length options.sort)
    ExceptT.mk (pure (options.sortOn photo folder))
  | some filter => do
    options.tell (.filter filter)
    let q ← options.compileFilter filter
    let selected := q.applyOn photo site
    options.tell (.matched selected.length site.length)
    match q.query.sort with
    | some clause =>
      options.tell (.orderKept clause.path)
      pure selected
    | none => ExceptT.mk (pure (options.sortOn photo selected))

/-- The lines that notes are logged as. -/
def Resolved.logged (options : Resolved) (notes : List Note) : List Text :=
  if options.debug then notes.map Note.line else []

/-- Notes are logged one after the other. -/
theorem Resolved.logged_append (options : Resolved) (notes notes' : List Note) :
    options.logged (notes ++ notes') = options.logged notes ++ options.logged notes' := by
  unfold logged
  cases options.debug with
  | true => exact List.map_append
  | false => rfl

/-- The steps end in the result, and leave the notes behind what is logged already. -/
def Resolved.Leaves {β : Type} (options : Resolved) (steps : Logging β) (result : Except Failure β)
    (notes : List Note) : Prop :=
  ∀ lines, steps.run lines = (result, lines ++ options.logged notes)

namespace Resolved.Leaves

variable {β γ : Type} {options : Resolved} {steps : Logging β} {next : β → Logging γ}
  {notes notes' : List Note}

theorem result (result : Except Failure β) :
    options.Leaves (ExceptT.mk (pure result)) result [] := by
  intro lines
  have nothing : options.logged [] = [] := ite_self []
  rw [nothing, List.append_nil]
  rfl

theorem tell (note : Note) : options.Leaves (options.tell note) (.ok ()) [note] := by
  intro lines
  unfold Resolved.tell logged
  cases options.debug with
  | true => rfl
  | false => exact congrArg _ (List.append_nil lines).symm

/-- Steps go on from the lines that the steps before them have logged. -/
theorem run_bind (steps : Logging β) (next : β → Logging γ) (lines : List Text) :
    (steps >>= next).run lines =
      (ExceptT.bindCont next (steps.run lines).1).run (steps.run lines).2 := rfl

/-- Steps after each other leave their notes after each other. -/
theorem bind {b : β} {result : Except Failure γ} (h : options.Leaves steps (.ok b) notes)
    (hn : options.Leaves (next b) result notes') :
    options.Leaves (steps >>= next) result (notes ++ notes') := by
  intro lines
  rw [run_bind, h lines, logged_append, ← List.append_assoc]
  exact hn _

/-- Behind steps that fail nothing is done. -/
theorem fail {failure : Failure} (h : options.Leaves steps (.error failure) notes) :
    options.Leaves (steps >>= next) (.error failure) notes := by
  intro lines
  rw [run_bind, h lines]
  rfl

/-- Compiling a filter that is a query leaves no note. -/
theorem compileFilter {filter : Text} {q : CompiledQuery}
    (h : CompiledQuery.ofSource filter = .ok q) :
    options.Leaves (options.compileFilter filter) (.ok q) [] := by
  rw [Resolved.compileFilter, h]
  exact .result (.ok q)

/-- Compiling a filter that is refused leaves a note of its error, and fails for it. -/
theorem compileFilter_refused {filter : Text} {problem : Problem}
    (h : CompiledQuery.ofSource filter = .error problem) :
    options.Leaves (options.compileFilter filter) (.error ⟨problem, filter⟩)
      [.invalidFilter (problem.detail filter)] := by
  rw [Resolved.compileFilter, h]
  exact (tell _).bind (.result (.error ⟨problem, filter⟩))

end Resolved.Leaves

variable {α : Type} {photo : α → Image} {site folder : List α}

/-- A selection ends the same whether it logs or not, and logs its notes. -/
theorem Resolved.leaves_selecting (options : Resolved) (photo : α → Image) (site folder : List α) :
    options.Leaves (options.selecting photo site folder)
      (options.select photo site folder).result (options.select photo site folder).notes := by
  unfold selecting select
  cases options.filter with
  | none => exact (Leaves.tell _).bind (.result _)
  | some filter =>
    dsimp only [selectBy]
    cases compiled : CompiledQuery.ofSource filter with
    | error problem =>
      exact (Leaves.tell _).bind (Leaves.compileFilter_refused compiled).fail
    | ok q =>
      obtain ⟨⟨predicate, sort, limit⟩, holds, ranking⟩ := q
      have compiles := @Leaves.compileFilter options _ _ compiled
      cases sort with
      | none => exact (Leaves.tell _).bind (compiles.bind ((Leaves.tell _).bind (.result _)))
      | some clause =>
        exact (Leaves.tell _).bind
          (compiles.bind ((Leaves.tell _).bind ((Leaves.tell _).bind (.result _))))

/-- Logging line by line, and looking at the flag when all is over, are the same. -/
theorem Resolved.run_selecting (options : Resolved) (photo : α → Image) (site folder : List α) :
    (options.selecting photo site folder).run [] =
      ((options.select photo site folder).result,
        (options.select photo site folder).log options.debug) :=
  options.leaves_selecting photo site folder []

/-! ### Notes -/

theorem Selection.log_false (selection : Selection α) : selection.log false = [] := rfl

theorem Selection.log_true (selection : Selection α) :
    selection.log true = selection.notes.map Note.line := rfl

/-- A selection by a filter takes note of the filter first. -/
theorem Resolved.exists_notes_selectBy (options : Resolved) (filter : Text) :
    ∃ notes, (options.selectBy photo filter site).notes = .filter filter :: notes := by
  unfold selectBy
  cases CompiledQuery.ofSource filter with
  | error problem => exact ⟨_, rfl⟩
  | ok q => cases hs : q.query.sort <;> simp [hs]

/-- Of a refused filter there are two notes: the filter, and its error. -/
theorem Resolved.selectBy_refused (options : Resolved) {filter : Text} {problem : Problem}
    (h : CompiledQuery.ofSource filter = .error problem) :
    options.selectBy photo filter site =
      ⟨.error ⟨problem, filter⟩, [.filter filter, .invalidFilter (problem.detail filter)]⟩ := by
  rw [selectBy, h]

/-! ### Lines -/

/-- The line that a log begins with. -/
inductive Options.Opens (options : Options) (setting : Option Text) (photos : Nat) :
    Text → Prop where
  | noFilter (h : options.Unfiltered) :
      Opens options setting photos
        (ofString "[gallery-query] No filter, sorting " ++ .ofNat photos ++
          ofString " folder image(s) by " ++ (options.resolve setting).sort.field ++ ofString " " ++
          ofString (options.resolve setting).sort.direction.word)
  | filter {filter : Text} (given : options.filter = some filter) (shows : filter.trim ≠ []) :
      Opens options setting photos (ofString "[gallery-query] Filter: " ++ filter)

theorem Note.line_noFilter (photos : Nat) (config : SortConfig) :
    (noFilter photos config).line =
      ofString "[gallery-query] No filter, sorting " ++ .ofNat photos ++
        ofString " folder image(s) by " ++ config.field ++ ofString " " ++
        ofString config.direction.word := by
  have front : ofString "[gallery-query] No filter, sorting " =
    ofString "[gallery-query] " ++ ofString "No filter, sorting " := by decide
  simp only [line, words, front, List.append_assoc]

theorem Note.line_filter (source : Text) :
    (filter source).line = ofString "[gallery-query] Filter: " ++ source := by
  have front : ofString "[gallery-query] Filter: " =
    ofString "[gallery-query] " ++ ofString "Filter: " := by decide
  simp only [line, words, front, List.append_assoc]

theorem Note.line_invalidFilter (detail : Text) :
    (invalidFilter detail).line = ofString "[gallery-query] Invalid filter:\n" ++ detail := by
  have front : ofString "[gallery-query] Invalid filter:\n" =
    ofString "[gallery-query] " ++ ofString "Invalid filter:\n" := by decide
  simp only [line, words, front, List.append_assoc]

/-- What is logged begins with a line for the filter. -/
theorem Options.exists_log {options : Options} {setting : Option Text}
    (h : (options.resolve setting).debug) :
    ∃ opening rest, (options.select setting photo site folder).2 = opening :: rest ∧
      options.Opens setting folder.length opening := by
  rw [select, h, Selection.log_true, Resolved.select]
  by_cases unfiltered : options.Unfiltered
  · rw [resolve_unfiltered unfiltered]
    exact ⟨_, [], rfl, Note.line_noFilter _ _ ▸ .noFilter unfiltered⟩
  · obtain ⟨filter, given, shows⟩ := exists_filter unfiltered
    rw [resolve_filtered given shows]
    obtain ⟨notes, opens⟩ := (options.resolve setting).exists_notes_selectBy filter
    refine ⟨_, _, congrArg (List.map Note.line) opens, ?_⟩
    exact Note.line_filter filter ▸ .filter given shows

/-- A refused filter is what a gallery fails for, and its error is logged behind it. -/
theorem Options.select_refused {options : Options} {filter : Text} {problem : Problem}
    (given : options.filter = some filter) (shows : filter.trim ≠ [])
    (refused : CompiledQuery.ofSource filter = .error problem) (setting : Option Text) :
    (options.select setting photo site folder).1 = .error ⟨problem, filter⟩ ∧
      ((options.resolve setting).debug → ∃ d, problem.diagnosis? filter = some d ∧
        (options.select setting photo site folder).2 =
          [ofString "[gallery-query] Filter: " ++ filter,
            ofString "[gallery-query] Invalid filter:\n" ++ d.detail]) := by
  refine ⟨select_eq_error.mpr (.filter given shows refused), fun debug => ?_⟩
  obtain ⟨d, diagnosed, -⟩ := CompiledQuery.ofSource_error refused
  refine ⟨d, diagnosed, ?_⟩
  have detail : problem.detail filter = d.detail := by
    rw [Problem.detail, diagnosed, Option.elim_some]
  simp only [select, debug, Selection.log_true, Resolved.select, resolve_filtered given shows,
    Resolved.selectBy_refused _ refused, List.map_cons, List.map_nil, Note.line_filter,
    Note.line_invalidFilter, detail]

/-- **Logging never changes the outcome.**  A selection may log line by line.  Whatever the debug
flag and the environment's debug variable are, it shows the same photos or fails for the same.
Without debugging it logs nothing; with it, first a line for the filter, and of a refused filter
then the error in full and nothing else. -/
theorem Options.debug_only_logs (options : Options) (setting : Option Text) {α : Type}
    (photo : α → Image) (site folder : List α) :
    ((options.resolve setting).selecting photo site folder).run [] =
      options.select setting photo site folder ∧
    (∀ debug setting', (Options.select { options with debug } setting' photo site folder).1 =
      (options.select setting photo site folder).1) ∧
    ((options.resolve setting).debug = false →
      (options.select setting photo site folder).2 = []) ∧
    ((options.resolve setting).debug = true →
      (∃ opening rest, (options.select setting photo site folder).2 = opening :: rest ∧
        options.Opens setting folder.length opening) ∧
      ∀ filter problem, options.filter = some filter → filter.trim ≠ [] →
        CompiledQuery.ofSource filter = .error problem →
        (options.select setting photo site folder).1 = .error ⟨problem, filter⟩ ∧
          ∃ d, problem.diagnosis? filter = some d ∧
            (options.select setting photo site folder).2 =
              [ofString "[gallery-query] Filter: " ++ filter,
                ofString "[gallery-query] Invalid filter:\n" ++ d.detail]) := by
  refine ⟨Resolved.run_selecting .., fun debug setting' => rfl, fun quiet => ?_,
    fun debug => ⟨exists_log debug, ?_⟩⟩
  · rw [select, quiet, Selection.log_false]
  · intro filter problem given shows refused
    obtain ⟨failed, logged⟩ := select_refused given shows refused setting
    exact ⟨failed, logged debug⟩

/-- A comparison without its second side fails a gallery with debugging and without. -/
theorem Options.debug_only_logs_unfinished :
    let source := ofString "filename =="
    let p : Problem := .syntactic ⟨11, .expectedExpression (ofString "end of expression")⟩
    let options : Options := { filter := some source, debug := some true }
    let quiet : Options := { options with debug := none }
    let photo (_ : Unit) : Image := ⟨[], .zero, .zero, none, none⟩
    (options.resolve none).debug = true ∧ (quiet.resolve none).debug = false ∧
      source.trim ≠ [] ∧ CompiledQuery.ofSource source = .error p ∧
      (quiet.select none photo [()] []).1 = (options.select none photo [()] []).1 ∧
      (quiet.select none photo [()] []).2 = [] ∧
      (∃ opening rest, (options.select none photo [()] []).2 = opening :: rest ∧
        options.Opens none 0 opening) ∧
      (options.select none photo [()] []).1 = .error ⟨p, source⟩ ∧
      ∃ d, p.diagnosis? source = some d ∧
        (options.select none photo [()] []).2 =
          [ofString "[gallery-query] Filter: " ++ source,
            ofString "[gallery-query] Invalid filter:\n" ++ d.detail] := by
  intro source p options quiet photo
  have refused : CompiledQuery.ofSource source = .error p := by
    have read : (CompiledQuery.ofSource source).map (fun _ => ()) = .error p := by decide +kernel
    exact map_eq_error.mp read
  have debug : (options.resolve none).debug = true := rfl
  have quietly : (quiet.resolve none).debug = false := rfl
  have shows : source.trim ≠ [] := by decide
  obtain ⟨-, same, -, logs⟩ := Options.debug_only_logs options none photo [()] []
  obtain ⟨opens, refuses⟩ := logs debug
  exact ⟨debug, quietly, shows, refused, same none none,
    (Options.debug_only_logs quiet none photo [()] []).2.2.1 quietly, opens,
    refuses source p rfl shows refused⟩

end PhotoQuery.Gallery
