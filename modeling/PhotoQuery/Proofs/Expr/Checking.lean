import PhotoQuery.Proofs.Expr.Compiling

/-!
# Expr — checking kinds

Compiling a tree accepts it if and only if it is well-typed, and then gives a reading of its kind
(`Expr.compile_iff_hasKind`).  Each table and each operator is compared with the typing relation in
a lemma of its own; soundness is by induction on what the tree compiles to, completeness by
induction on the derivation of its kind.

A tree that is refused is refused at the position of a node that is to blame (`Expr.Blames`): one
that has no kind although what stands under it has, or calls no function; or an operand of a
connective or a negation that is not a truth value.
-/

namespace PhotoQuery

open Text Outcome

/-! ### Readings -/

theorem Reading.exists_boolean {r : Reading} (h : r.kind = .boolean) :
    ∃ read, r = .boolean read := by
  cases r with
  | boolean read => exact ⟨read, rfl⟩
  | _ => cases h

theorem Reading.exists_string {r : Reading} (h : r.kind = .string) : ∃ read, r = .string read := by
  cases r with
  | string read => exact ⟨read, rfl⟩
  | _ => cases h

theorem Reading.exists_date {r : Reading} (h : r.kind = .date) : ∃ read, r = .date read := by
  cases r with
  | date read => exact ⟨read, rfl⟩
  | _ => cases h

theorem Reading.asBoolean_eq_error {r : Reading} {position : Nat} {cause : SemanticError}
    {p : Problem} (h : r.asBoolean position cause = .error p) :
    r.kind ≠ .boolean ∧ p = .semantic ⟨position, cause⟩ := by
  cases r with
  | boolean read' => cases h
  | _ => cases h; exact ⟨nofun, rfl⟩

theorem Comparison.isEquality_iff {op : Comparison} : op.isEquality ↔ op.IsEquality := by
  cases op <;> simp [isEquality, IsEquality]

theorem Reading.exists_null {r : Reading} (h : r.kind = .null) : r = .null := by
  cases r with
  | null => rfl
  | _ => cases h

theorem Reading.exists_number {r : Reading} (h : r.kind.IsNumber) :
    ∃ read, r = .integer read ∨ r = .decimal read := by
  cases r with
  | integer read => exact ⟨read, .inl rfl⟩
  | decimal read => exact ⟨read, .inr rfl⟩
  | _ => cases h

/-- Readings of kinds that can be compared are, to a truth value. -/
theorem Reading.compared_of_comparable {op : Comparison} {l r : Reading}
    (h : Comparable op l.kind r.kind) :
    ∃ c, Reading.compared op l r = .ok c ∧ c.kind = .boolean := by
  have equality : op.IsEquality → op.isEquality = true := Comparison.isEquality_iff.mpr
  generalize hk : l.kind = k at h
  generalize hk' : r.kind = k' at h
  cases h with
  | numbers hl hr =>
    obtain ⟨read, hl⟩ := exists_number (hk ▸ hl)
    obtain ⟨read', hr⟩ := exists_number (hk' ▸ hr)
    rcases hl with rfl | rfl
    · rcases hr with rfl | rfl
      · exact ⟨_, rfl, rfl⟩
      · exact ⟨_, rfl, rfl⟩
    · rcases hr with rfl | rfl
      · exact ⟨_, rfl, rfl⟩
      · exact ⟨_, rfl, rfl⟩
  | strings =>
    obtain ⟨read, rfl⟩ := exists_string hk
    obtain ⟨read', rfl⟩ := exists_string hk'
    exact ⟨_, rfl, rfl⟩
  | dates =>
    obtain ⟨read, rfl⟩ := exists_date hk
    obtain ⟨read', rfl⟩ := exists_date hk'
    exact ⟨_, rfl, rfl⟩
  | booleans he =>
    obtain ⟨read, rfl⟩ := exists_boolean hk
    obtain ⟨read', rfl⟩ := exists_boolean hk'
    exact ⟨_, if_pos (equality he), rfl⟩
  | nullLeft he =>
    obtain rfl := exists_null hk
    exact ⟨_, if_pos (equality he), rfl⟩
  | nullRight he =>
    obtain rfl := exists_null hk'
    -- the other side may be `null` too, so which arm is taken depends on it
    cases l <;> exact ⟨_, if_pos (equality he), rfl⟩

theorem Reading.isNumber_of_number? {r : Reading} {read : Image → Option Number}
    (h : r.number? = some read) : r.kind.IsNumber := by
  cases r with
  | integer => exact .integer
  | decimal => exact .decimal
  | _ => cases h

/-- Readings that are compared are of kinds that can be. -/
theorem Reading.Compares.comparable {op : Comparison} {l r c : Reading}
    (h : Reading.Compares op l r c) : Comparable op l.kind r.kind := by
  cases h with
  | nullLeft r he => exact .nullLeft (Comparison.isEquality_iff.mp he)
  | nullRight l he => exact .nullRight (Comparison.isEquality_iff.mp he)
  | strings l r => exact .strings
  | dates l r => exact .dates
  | booleans l r he => exact .booleans (Comparison.isEquality_iff.mp he)
  | numbers hl hr => exact .numbers (isNumber_of_number? hl) (isNumber_of_number? hr)

/-! ### Calls -/

theorem Function.call_datePart (part : DatePart) (name : Text) (position : Nat) {date : Compiled}
    (h : date.kind = .date) :
    ∃ c, Function.call (.datePart part) name position [date] = .ok c ∧ c.kind = .integer := by
  obtain ⟨read, hd⟩ := Reading.exists_date h
  simp only [Function.call, hd]
  exact ⟨_, rfl, rfl⟩

theorem Function.call_stringTest (test : StringTest) (name : Text) (position : Nat)
    {text needle : Compiled} (ht : text.kind = .string) (hn : needle.kind = .string) :
    ∃ c, Function.call (.stringTest test) name position [text, needle] = .ok c ∧
      c.kind = .boolean := by
  obtain ⟨read, ht⟩ := Reading.exists_string ht
  obtain ⟨sought, hn⟩ := Reading.exists_string hn
  simp only [Function.call, ht, hn]
  exact ⟨_, rfl, rfl⟩

theorem Function.call_caseForm (form : CaseForm) (name : Text) (position : Nat) {text : Compiled}
    (h : text.kind = .string) :
    ∃ c, Function.call (.caseForm form) name position [text] = .ok c ∧ c.kind = .string := by
  obtain ⟨read, ht⟩ := Reading.exists_string h
  simp only [Function.call, ht]
  exact ⟨_, rfl, rfl⟩

/-- An error reported at a position is a semantic one there. -/
theorem reportAt_eq_error {α : Type} {position : Nat} {x : Except SemanticError α} {p : Problem}
    (h : reportAt position x = .error p) : ∃ cause, p = .semantic ⟨position, cause⟩ := by
  obtain ⟨cause, -, rfl⟩ := mapError_eq_error.mp h
  exact ⟨cause, rfl⟩

/-! ### Trees -/

namespace Expr

theorem typed_of_compileAll {args : List Expr} {cs : List Compiled}
    (h : compileAll args = .ok cs) : ∀ e ∈ args, ∃ c, compile e = .ok c := by
  induction args generalizing cs with
  | nil => exact List.forall_mem_nil _
  | cons e es ih =>
    rw [compileAll] at h
    obtain ⟨c, hc, h⟩ := bind_eq_ok.mp h
    obtain ⟨cs, hcs, -⟩ := bind_eq_ok.mp h
    exact List.forall_mem_cons.mpr ⟨⟨c, hc⟩, ih hcs⟩

theorem compileAll_error {args : List Expr} {p : Problem} (h : compileAll args = .error p) :
    ∃ e ∈ args, compile e = .error p := by
  induction args with
  | nil => rw [compileAll] at h; cases h
  | cons e es ih =>
    rw [compileAll] at h
    rcases bind_eq_error.mp h with he | ⟨c, -, h⟩
    · exact ⟨e, by simp, he⟩
    · rcases bind_eq_error.mp h with hes | ⟨cs, -, h⟩
      · obtain ⟨e', he', h⟩ := ih hes
        exact ⟨e', by simp [he'], h⟩
      · cases h

/-- A call compiles to what its function makes of its compiled arguments. -/
theorem compile_call {name : Text} {position : Nat} {args : List Expr} {f : Function}
    {cs : List Compiled} {c : Compiled} (named : name.IsNamed f.name)
    (hcs : compileAll args = .ok cs) (hc : f.call name position cs = .ok c) :
    compile (.call name position args) = .ok c := by
  rw [compile, reportAt_eq_ok.mpr (Function.named_of_isNamed named), ok_bind, hcs, ok_bind,
    reportAt_eq_ok.mpr hc]

/-- A compiled tree is well-typed, and its reading is of its kind and stands at its position. -/
theorem CompilesTo.hasKind {e : Expr} {c : Compiled} (h : CompilesTo e c) :
    e.HasKind c.kind ∧ c.position = e.position := by
  induction h with
  | constant value position => cases value <;> exact ⟨.constant _ position, rfl⟩
  | property position h => exact ⟨.property position h.pathKind, rfl⟩
  | negation position _ ih => exact ⟨.negation position ih.1, rfl⟩
  | logical connective position _ _ ihl ihr =>
    exact ⟨.logical connective position ihl.1 ihr.1, rfl⟩
  | comparison position _ _ hc ihl ihr =>
    obtain ⟨holds, rfl⟩ := hc.exists_test
    exact ⟨.comparison position ihl.1 ihr.1 hc.comparable, rfl⟩
  | datePart part position hn _ ih => exact ⟨.datePart part position hn ih.1, rfl⟩
  | stringTest test position hn _ _ iht ih =>
    exact ⟨.stringTest test position hn iht.1 ih.1, rfl⟩
  | caseForm form position hn _ ih => exact ⟨.caseForm form position hn ih.1, rfl⟩

/-- **Soundness**: an accepted tree is well-typed, and its reading is of its kind and stands at its
position. -/
theorem hasKind_of_compile {e : Expr} {c : Compiled} (h : e.compile = .ok c) :
    e.HasKind c.kind ∧ c.position = e.position := (compilesTo_of_compile h).hasKind

/-- **Completeness**: a well-typed tree is accepted, with a reading of its kind. -/
theorem compile_of_hasKind {e : Expr} {k : Kind} (h : e.HasKind k) :
    ∃ c, e.compile = .ok c ∧ c.kind = k := by
  induction h with
  | constant value position =>
    rw [compile]
    cases value <;> exact ⟨_, rfl, rfl⟩
  | property position hp =>
    obtain ⟨property, found, kind⟩ := Property.ofPath_of_pathKind hp
    rw [compile, found]
    exact ⟨_, rfl, kind⟩
  | negation position _ ih =>
    obtain ⟨o, ho, kind⟩ := ih
    obtain ⟨read, hb⟩ := Reading.exists_boolean kind
    rw [compile, ho, ok_bind, Reading.asBoolean_eq_ok.mpr hb]
    exact ⟨_, rfl, rfl⟩
  | logical connective position _ _ ihl ihr =>
    obtain ⟨l, hl, kindLeft⟩ := ihl
    obtain ⟨r, hr, kindRight⟩ := ihr
    obtain ⟨readLeft, hbl⟩ := Reading.exists_boolean kindLeft
    obtain ⟨readRight, hbr⟩ := Reading.exists_boolean kindRight
    rw [compile, hl, ok_bind, hr, ok_bind, Reading.asBoolean_eq_ok.mpr hbl, ok_bind,
      Reading.asBoolean_eq_ok.mpr hbr]
    exact ⟨_, rfl, rfl⟩
  | comparison position _ _ comparable ihl ihr =>
    obtain ⟨l, hl, rfl⟩ := ihl
    obtain ⟨r, hr, rfl⟩ := ihr
    obtain ⟨reading, compared, kind⟩ := Reading.compared_of_comparable comparable
    rw [compile, hl, ok_bind, hr, ok_bind, compared]
    exact ⟨_, rfl, kind⟩
  | @datePart name e part position named _ ih =>
    obtain ⟨arg, ha, kind⟩ := ih
    obtain ⟨c, called, result⟩ := Function.call_datePart part name position kind
    have args : compileAll [e] = .ok [arg] := by rw [compileAll, ha, compileAll]; rfl
    exact ⟨c, compile_call named args called, result⟩
  | @stringTest name e e' test position named _ _ iht ihn =>
    obtain ⟨text, ht, kindText⟩ := iht
    obtain ⟨needle, hn, kindNeedle⟩ := ihn
    obtain ⟨c, called, result⟩ := Function.call_stringTest test name position kindText kindNeedle
    have args : compileAll [e, e'] = .ok [text, needle] := by
      rw [compileAll, ht, compileAll, hn, compileAll]
      rfl
    exact ⟨c, compile_call named args called, result⟩
  | @caseForm name e form position named _ ih =>
    obtain ⟨arg, ha, kind⟩ := ih
    obtain ⟨c, called, result⟩ := Function.call_caseForm form name position kind
    have args : compileAll [e] = .ok [arg] := by rw [compileAll, ha, compileAll]; rfl
    exact ⟨c, compile_call named args called, result⟩

/-- A tree that is refused has no kind. -/
theorem not_hasKind_of_compile {e : Expr} {p : Problem} (h : e.compile = .error p) (k : Kind) :
    ¬ e.HasKind k := by
  intro typed
  obtain ⟨c, hc, -⟩ := compile_of_hasKind typed
  rw [h] at hc
  cases hc

/-! ### Refused trees -/

/-- The first tree must be a truth value, because the root of the second joins or negates it; the
cause is what a tree that is none is refused for. -/
inductive Operand : Expr → Expr → SemanticError → Prop where
  | left (connective : Connective) (position : Nat) (left right : Expr) :
      Operand left (.logical connective position left right) (.sideNotBoolean .left connective)
  | right (connective : Connective) (position : Nat) (left right : Expr) :
      Operand right (.logical connective position left right) (.sideNotBoolean .right connective)
  | negated (position : Nat) (e : Expr) : Operand e (.negation position e) .operandNotBoolean

/-- The node is to blame for having no kind: all that stands directly under it has one, or it calls
no function. -/
inductive AtFault : Expr → Prop where
  | node {e : Expr} (hk : ∀ k, ¬ e.HasKind k) (hc : ∀ m, Child m e → ∃ k, m.HasKind k) : AtFault e
  | unknown {name : Text} {args : List Expr} (position : Nat)
      (h : ∀ f : Function, ¬ name.IsNamed f.name) : AtFault (.call name position args)

/-- What a tree may be refused with: an error at a node of it that is at fault, or at an operand of
a connective or a negation that is not a truth value; or, if it has a foreign node, that node. -/
inductive Blames (e : Expr) : Problem → Prop where
  | fault {n : Expr} (cause : SemanticError) (h : Within n e) (hn : AtFault n) :
      Blames e (.semantic ⟨n.position, cause⟩)
  | operand {m n : Expr} {k : Kind} {cause : SemanticError} (h : Within m e)
      (ho : Operand n m cause) (hn : n.HasKind k) (hk : k ≠ .boolean) :
      Blames e (.semantic ⟨n.position, cause⟩)
  | foreign {tag : Text} (h : Within (.foreign tag) e) : Blames e (.foreignNode tag)

/-- What is to blame in a part of a tree is to blame in the tree. -/
theorem Blames.under {e e' : Expr} {p : Problem} (h : Blames e p) (hc : Child e e') :
    Blames e' p := by
  have within : Within e e' := .step (.refl e) hc
  cases h with
  | fault cause hn fault => exact .fault cause (hn.trans within) fault
  | operand hm ho hn hk => exact .operand (hm.trans within) ho hn hk
  | foreign hf => exact .foreign (hf.trans within)

/-- An operand that compiles, but not to a truth value, is to blame. -/
theorem Blames.of_asBoolean {e n : Expr} {c : Compiled} {cause : SemanticError} {p : Problem}
    (ho : Operand n e cause) (hc : n.compile = .ok c)
    (h : c.reading.asBoolean n.position cause = .error p) : Blames e p := by
  obtain ⟨kind, rfl⟩ := Reading.asBoolean_eq_error h
  exact .operand (.refl e) ho (hasKind_of_compile hc).1 kind

/-- A node that is refused although what stands under it is accepted is at fault. -/
theorem AtFault.of_children {e : Expr} {p : Problem} (h : e.compile = .error p)
    (hc : ∀ m, Child m e → ∃ c, m.compile = .ok c) : AtFault e := by
  refine .node (not_hasKind_of_compile h) ?_
  intro m hm
  obtain ⟨c, hc⟩ := hc m hm
  exact ⟨c.kind, (hasKind_of_compile hc).1⟩

/-- **A refused tree** is refused with a problem that is to blame. -/
theorem blames_of_compile {e : Expr} {p : Problem} (h : e.compile = .error p) : e.Blames p := by
  induction e using Expr.induct generalizing p with
  | logical connective position left right ihl ihr =>
    rw [compile] at h
    rcases bind_eq_error.mp h with hl | ⟨l, hl, h⟩
    · exact (ihl hl).under (.left connective position left right)
    rcases bind_eq_error.mp h with hr | ⟨r, hr, h⟩
    · exact (ihr hr).under (.right connective position left right)
    rcases bind_eq_error.mp h with hbl | ⟨readLeft, -, h⟩
    · exact .of_asBoolean (.left connective position left right) hl hbl
    rcases bind_eq_error.mp h with hbr | ⟨readRight, -, h⟩
    · exact .of_asBoolean (.right connective position left right) hr hbr
    · cases h
  | comparison op position left right ihl ihr =>
    have fault := AtFault.of_children h
    rw [compile] at h
    rcases bind_eq_error.mp h with hl | ⟨l, hl, h⟩
    · exact (ihl hl).under (.compared op position left right)
    rcases bind_eq_error.mp h with hr | ⟨r, hr, h⟩
    · exact (ihr hr).under (.comparedTo op position left right)
    rcases bind_eq_error.mp h with hc | ⟨reading, -, h⟩
    · obtain ⟨cause, rfl⟩ := reportAt_eq_error hc
      refine .fault cause (.refl _) (fault ?_)
      intro m hm
      cases hm with
      | compared => exact ⟨l, hl⟩
      | comparedTo => exact ⟨r, hr⟩
    · cases h
  | negation position operand ih =>
    rw [compile] at h
    rcases bind_eq_error.mp h with ho | ⟨o, ho, h⟩
    · exact (ih ho).under (.negated position operand)
    rcases bind_eq_error.mp h with hb | ⟨read, -, h⟩
    · exact .of_asBoolean (.negated position operand) ho hb
    · cases h
  | call name position args ih =>
    have fault := AtFault.of_children h
    rw [compile] at h
    -- the name is looked up first, so an unknown one is at fault whatever the arguments are
    rcases bind_eq_error.mp h with hf | ⟨f, -, h⟩
    · obtain ⟨cause, rfl⟩ := reportAt_eq_error hf
      refine .fault cause (.refl _) (.unknown position ?_)
      intro f named
      rw [Function.named_of_isNamed named] at hf
      cases hf
    rcases bind_eq_error.mp h with ha | ⟨cs, hcs, h⟩
    · obtain ⟨e, he, hc⟩ := compileAll_error ha
      exact (ih e he hc).under (.arg name position he)
    · obtain ⟨cause, rfl⟩ := reportAt_eq_error h
      refine .fault cause (.refl _) (fault ?_)
      intro m hm
      cases hm with
      | arg _ _ he => exact typed_of_compileAll hcs m he
  | property path position =>
    have fault := AtFault.of_children h
    rw [compile] at h
    rcases bind_eq_error.mp h with hp | ⟨property, -, h⟩
    · obtain ⟨cause, rfl⟩ := reportAt_eq_error hp
      exact .fault cause (.refl _) (fault fun m hm => by cases hm)
    · cases h
  | constant value position =>
    rw [compile] at h
    cases h
  | foreign tag =>
    rw [compile] at h
    cases h
    exact .foreign (.refl _)

/-! ### Accepted trees -/

/-- The trees that are tests are those of truth values. -/
theorem predicate_eq_ok {e : Expr} : (∃ test, e.predicate = .ok test) ↔ e.HasKind .boolean := by
  constructor
  · rintro ⟨test, h⟩
    obtain ⟨c, hc, h⟩ := bind_eq_ok.mp h
    obtain ⟨read, hb, -⟩ := bind_eq_ok.mp h
    have kind : c.kind = .boolean := by rw [Compiled.kind, Reading.asBoolean_eq_ok.mp hb]; rfl
    exact kind ▸ (hasKind_of_compile hc).1
  · intro h
    obtain ⟨c, hc, kind⟩ := compile_of_hasKind h
    obtain ⟨read, hb⟩ := Reading.exists_boolean kind
    rw [predicate, hc, ok_bind, Reading.asBoolean_eq_ok.mpr hb]
    exact ⟨_, rfl⟩

/-- A tree that is no test is refused as a tree, or else has another kind and is refused as a
whole. -/
theorem predicate_eq_error {e : Expr} {p : Problem} (h : e.predicate = .error p) :
    e.Blames p ∨ ∃ k, e.HasKind k ∧ k ≠ .boolean ∧
      p = .semantic ⟨e.position, .predicateNotBoolean⟩ := by
  rcases bind_eq_error.mp h with hc | ⟨c, hc, h⟩
  · exact .inl (blames_of_compile hc)
  rcases bind_eq_error.mp h with hb | ⟨read, -, h⟩
  · obtain ⟨kind, rfl⟩ := Reading.asBoolean_eq_error hb
    exact .inr ⟨c.kind, (hasKind_of_compile hc).1, kind, rfl⟩
  · cases h

/-- **Exactly the well-typed trees are accepted.**  A tree is compiled to a reading of a kind if and
only if that is its kind, and the reading stands at the tree's position; it is compiled to a test if
and only if its kind is boolean; and a tree that is refused is refused at a node that is to
blame. -/
theorem compile_iff_hasKind (e : Expr) :
    (∀ k, (∃ c, e.compile = .ok c ∧ c.kind = k) ↔ e.HasKind k) ∧
      (∀ c, e.compile = .ok c → c.position = e.position) ∧
      ((∃ test, e.predicate = .ok test) ↔ e.HasKind .boolean) ∧
      (∀ p, e.compile = .error p → e.Blames p) ∧
      ∀ p, e.predicate = .error p → e.Blames p ∨ ∃ k, e.HasKind k ∧ k ≠ .boolean ∧
        p = .semantic ⟨e.position, .predicateNotBoolean⟩ := by
  refine ⟨fun k => ⟨?_, compile_of_hasKind⟩, fun c h => (hasKind_of_compile h).2, predicate_eq_ok,
    fun p => blames_of_compile, fun p => predicate_eq_error⟩
  rintro ⟨c, hc, rfl⟩
  exact (hasKind_of_compile hc).1

end Expr

end PhotoQuery
