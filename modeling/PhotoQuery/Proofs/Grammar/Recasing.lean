import PhotoQuery.Proofs.Expr.Recasing
import PhotoQuery.Proofs.Grammar.Derivation
import PhotoQuery.Proofs.Token.Recasing

/-!
# Grammar — words in other cases

The grammar looks at the kinds of words, and at their spelling only to put the names into the tree.
So token lists that differ in the case of words derive trees that differ in the case of names
(`Derives.recased`), at the same cost, provided that the names of raw tags are kept
(`Token.AllRecased`).

Which names these are is read off the tokens (`rawTags`).  A derivation is cut at operators, marks
and keywords, and no path reaches over one, so the parts of a list have the raw tags of the list.
-/

namespace PhotoQuery

/-! ### Raw tags of parts -/

/-- No name stands in front, so no path goes on here. -/
def NoName (ts : List Token) : Prop := ∀ t ∈ ts.head?, t.kind ≠ .identifier

theorem noName_nil : NoName [] := by simp [NoName]

theorem noName_cons {t : Token} {ts : List Token} (h : t.kind ≠ .identifier) :
    NoName (t :: ts) := by
  rintro u hu
  cases hu
  exact h

/-- No path goes on behind two parts of a list if none goes on behind the parts. -/
theorem NoName.append {ts₁ ts₂ : List Token} (h₁ : NoName ts₁) (h₂ : NoName ts₂) :
    NoName (ts₁ ++ ts₂) := by
  cases ts₁ with
  | nil => exact h₂
  | cons t ts => exact noName_cons (h₁ t rfl)

section

variable {ts ts₁ ts₂ : List Token} {t tag : Token}

/-- A raw tag at the front of a list is there whatever is behind the list. -/
theorem tagAtHead?_append (h : tagAtHead? ts = some tag) (more : List Token) :
    tagAtHead? (ts ++ more) = some tag := by
  unfold tagAtHead? at h
  split at h
  · exact h
  · cases h

theorem tagAtHead?_of_ne (ht : NoName ts) : tagAtHead? ts = none := by
  unfold tagAtHead?
  split
  · exact if_neg fun path => ht _ rfl path.1
  · rfl

/-- The raw tags of a front part are raw tags of the list. -/
theorem mem_rawTags_append_left {behindDot : Bool} (h : tag ∈ rawTags behindDot ts₁) :
    tag ∈ rawTags behindDot (ts₁ ++ ts₂) := by
  induction ts₁ generalizing behindDot with
  | nil => cases h
  | cons t ts₁ ih =>
    rw [rawTags, List.mem_append] at h
    rw [List.cons_append, rawTags, List.mem_append]
    refine h.imp (fun here => ?_) ih
    split at here
    · cases here
    · rename_i start
      rw [if_neg start]
      rw [Option.mem_toList] at here ⊢
      exact tagAtHead?_append here ts₂

/-- Where no name stands in front, it does not matter what stands before it. -/
theorem rawTags_of_ne (ht : NoName ts) (behindDot : Bool) :
    rawTags behindDot ts = rawTags false ts := by
  cases ts with
  | nil => rfl
  | cons t ts =>
    rw [rawTags, rawTags, tagAtHead?_of_ne ht]
    cases behindDot <;> rfl

/-- The raw tags of a back part are raw tags of the list, if no path goes on into that part. -/
theorem mem_rawTags_append_right (ht : NoName ts₂)
    (h : tag ∈ rawTags false ts₂) (behindDot : Bool) :
    tag ∈ rawTags behindDot (ts₁ ++ ts₂) := by
  induction ts₁ generalizing behindDot with
  | nil => exact (rawTags_of_ne ht behindDot).symm ▸ h
  | cons t ts₁ ih => exact List.mem_append_right _ (ih _)

/-- A token in front that is no dot leaves the raw tags what they are. -/
theorem mem_rawTags_cons (ht : t.kind ≠ .dot) (h : tag ∈ rawTags false ts) :
    tag ∈ rawTags false (t :: ts) := by
  rw [rawTags, decide_eq_false ht]
  exact List.mem_append_right _ h

end

/-! ### Recased token lists -/

/-- The second tokens are the first ones with the case of words changed, but not the case of raw
tags. -/
structure Token.AllRecased (kept : Token → Prop) (ts ts' : List Token) : Prop where
  each : List.Forall₂ (Token.Recased kept) ts ts'
  tags : ∀ t ∈ rawTags false ts, kept t

namespace Token.AllRecased

variable {kept : Token → Prop} {t : Token} {ts ts₁ ts₂ us : List Token}

/-- Recased lists are recased token by token; behind one that is no dot, the raw tags are those of
the rest. -/
theorem cons_left (h : AllRecased kept (t :: ts) us) (ht : t.kind ≠ .dot) :
    ∃ u us', us = u :: us' ∧ t.Recased kept u ∧ AllRecased kept ts us' := by
  obtain ⟨each, tags⟩ := h
  cases each with
  | cons head tail => exact ⟨_, _, rfl, head, tail, fun t ht' => tags t (mem_rawTags_cons ht ht')⟩

/-- A recased list falls apart where the list does, if no path goes over that place. -/
theorem append_left (h : AllRecased kept (ts₁ ++ ts₂) us) (ht : NoName ts₂) :
    ∃ us₁ us₂, us = us₁ ++ us₂ ∧ AllRecased kept ts₁ us₁ ∧ AllRecased kept ts₂ us₂ := by
  have whole : us.take ts₁.length ++ us.drop ts₁.length = us := List.take_append_drop _ us
  have flipped : List.Forall₂ (flip (Token.Recased kept)) us (ts₁ ++ ts₂) := h.each.flip
  refine ⟨_, _, whole.symm, ⟨?_, ?_⟩, ⟨?_, ?_⟩⟩
  · exact (List.forall₂_take_append us ts₁ ts₂ flipped).flip
  · exact fun t ht' => h.tags t (mem_rawTags_append_left ht')
  · exact (List.forall₂_drop_append us ts₁ ts₂ flipped).flip
  · exact fun t ht' => h.tags t (mem_rawTags_append_right ht ht' false)

theorem nil_left (h : AllRecased kept [] us) : us = [] := List.forall₂_nil_left_iff.mp h.each

theorem singleton_left (h : AllRecased kept [t] us) : ∃ u, us = [u] ∧ t.Recased kept u := by
  obtain ⟨each, -⟩ := h
  cases each with
  | cons head tail =>
    cases tail with
    | nil => exact ⟨_, rfl, head⟩

end Token.AllRecased

namespace Grammar

open Text

variable {kept : Token → Prop}

/-! ### Literals and paths -/

/-- Literals have no case that counts: words among them are keywords. -/
theorem Literal.recased {t t' : Token} {v : Constant} (h : Literal t v) (ht : t.Recased kept t') :
    Literal t' v := by
  have same (plain : t.kind.isWord = Bool.false) : t'.value = t.value := ht.same (.inl plain)
  cases h with
  | string kind =>
    rw [← same (by rw [kind]; rfl)]
    exact .string (ht.kind.trans kind)
  | integer kind shape safe =>
    rw [← same (by rw [kind]; rfl)] at shape safe ⊢
    exact .integer (ht.kind.trans kind) shape safe
  | decimal kind hw hf value =>
    rw [← same (by rw [kind]; rfl)] at value
    exact .decimal (ht.kind.trans kind) hw hf value
  | true kind => exact .true (ht.kind.trans kind)
  | false kind => exact .false (ht.kind.trans kind)
  | null kind => exact .null (ht.kind.trans kind)

/-- Recased segments are the same names in other cases. -/
theorem Segments.recased {ts us : List Token} {names : List Text} (h : Segments ts names)
    (each : List.Forall₂ (Token.Recased kept) ts us) :
    ∃ names', Segments us names' ∧
      List.Forall₂ (fun n n' => Text.lower n' = Text.lower n) names names' := by
  induction h generalizing us with
  | nil =>
    cases each
    exact ⟨[], .nil, .nil⟩
  | cons dotKind nameKind _ ih =>
    cases each with | cons hd each =>
    cases each with | cons hn each =>
    obtain ⟨names', segments, lower⟩ := ih each
    exact ⟨_, .cons (hd.kind.trans dotKind) (hn.kind.trans nameKind) segments, .cons hn.lower lower⟩

/-- A recased path names what the path does: its names are found in any case, but for a raw tag,
which is kept. -/
theorem Segments.renames {first first' : Token} {ts us : List Token} {names : List Text}
    (h : Segments ts names) (kind : first.kind = .identifier)
    (recased : Token.AllRecased kept (first :: ts) (first' :: us)) :
    ∃ names', Segments us names' ∧
      Property.Renames (first.value :: names) (first'.value :: names') := by
  obtain ⟨whole, tags⟩ := recased
  obtain ⟨head, behind⟩ := List.forall₂_cons.mp whole
  obtain ⟨names', segments, lower⟩ := h.recased behind
  refine ⟨names', segments, fun p named => ?_⟩
  cases named with
  | image field hn =>
    cases lower
    exact .image field (hn.of_lower head.lower)
  | exif field hr hn =>
    cases lower with | cons hs lower =>
    cases lower
    exact .exif field (hr.of_lower head.lower) (hn.of_lower hs)
  | raw tag hr hn =>
    cases h with | @cons dot name _ _ hd hname h =>
    cases h with | @cons dot' tag _ _ hd' htag h =>
    cases h
    cases behind with | cons _ behind =>
    cases behind with | cons segment behind =>
    cases behind with | cons _ behind =>
    cases behind with | cons last behind =>
    cases behind
    cases segments with | cons _ _ segments =>
    cases segments with | cons _ _ segments =>
    cases segments
    -- the third segment is one of the raw tags, so it is spelled as it was
    have found : tagAtHead? [first, dot, name, dot', tag] = some tag :=
      if_pos ⟨kind, hr, hd, hname, hn, hd', htag⟩
    have isTag : tag ∈ rawTags false [first, dot, name, dot', tag] := by
      rw [rawTags, found]
      exact List.mem_append_left _ List.mem_cons_self
    rw [last.same (.inr (tags tag isTag))]
    exact .raw _ (hr.of_lower head.lower) (hn.of_lower segment.lower)

/-! ### Items -/

/-- The second item is the first one with the case of words changed. -/
structure Item.Recased (c : Category) (i i' : Item) : Prop where
  kind : i'.mark.kind = i.mark.kind
  position : i'.mark.position = i.mark.position
  cost : i'.cost = i.cost
  tree : i.tree.Recased i'.tree
  derives : Derives c i'.tokens i'.tree i'.cost

/-- Marks stand in front of items, and no path goes on over them. -/
theorem Item.noName_spread {items : List Item} {kind : TokenKind} (plain : kind ≠ .identifier)
    (marks : ∀ i ∈ items, i.mark.kind = kind) : NoName (Item.spread items) := by
  cases items with
  | nil => exact noName_nil
  | cons i items => exact noName_cons ((marks i List.mem_cons_self).trans_ne plain)

/-- Recased items are items again, with recased trees at the same costs. -/
theorem Item.spread_recased {c : Category} {items : List Item} {us : List Token}
    {kind : TokenKind} (plain : kind ≠ .identifier) (dotless : kind ≠ .dot)
    (marks : ∀ i ∈ items, i.mark.kind = kind)
    (ih : ∀ i ∈ items, ∀ {us}, Token.AllRecased kept i.tokens us →
      ∃ e', Derives c us e' i.cost ∧ i.tree.Recased e')
    (h : Token.AllRecased kept (Item.spread items) us) :
    ∃ items', us = Item.spread items' ∧ List.Forall₂ (Item.Recased c) items items' := by
  induction items generalizing us with
  | nil =>
    obtain rfl := h.nil_left
    exact ⟨[], rfl, .nil⟩
  | cons i items more =>
    rw [List.forall_mem_cons] at marks ih
    rw [Item.spread_cons] at h
    obtain ⟨mark, us, rfl, head, h⟩ := h.cons_left (marks.1.trans_ne dotless)
    obtain ⟨us₁, us₂, rfl, first, others⟩ := h.append_left (Item.noName_spread plain marks.2)
    obtain ⟨e', derives, tree⟩ := ih.1 first
    obtain ⟨items', rfl, each⟩ := more marks.2 ih.2 others
    exact ⟨⟨mark, us₁, e', i.cost⟩ :: items', rfl,
      .cons ⟨head.kind, head.position, rfl, tree, derives⟩ each⟩

theorem Item.joined_recased {c : Category} {connective : Connective} {items items' : List Item}
    {e e' : Expr} (h : List.Forall₂ (Item.Recased c) items items') (he : e.Recased e') :
    (Item.joined connective e items).Recased (Item.joined connective e' items') := by
  induction h generalizing e e' with
  | nil => exact he
  | @cons i i' _ _ hi _ ih =>
    have joined : Expr.Recased (.logical connective i.mark.position e i.tree)
        (.logical connective i'.mark.position e' i'.tree) := by
      rw [hi.position]
      exact .logical connective _ he hi.tree
    exact ih joined

theorem Item.costs_recased {c : Category} {items items' : List Item}
    (h : List.Forall₂ (Item.Recased c) items items') :
    items'.map Item.cost = items.map Item.cost := by
  induction h with
  | nil => rfl
  | cons hi _ ih => rw [List.map_cons, List.map_cons, hi.cost, ih]

theorem Item.trees_recased {c : Category} {items items' : List Item}
    (h : List.Forall₂ (Item.Recased c) items items') :
    List.Forall₂ Expr.Recased (items.map Item.tree) (items'.map Item.tree) := by
  rw [List.forall₂_map_left_iff, List.forall₂_map_right_iff]
  exact h.imp fun _ _ hi => hi.tree

/-- What holds of the marks of some items, and of their parts, holds of the recased ones. -/
theorem Item.recased_mem {c : Category} {items items' : List Item} {kind : TokenKind}
    (h : List.Forall₂ (Item.Recased c) items items') (marks : ∀ i ∈ items, i.mark.kind = kind) :
    ∀ i ∈ items', i.mark.kind = kind ∧ Derives c i.tokens i.tree i.cost := by
  induction h with
  | nil => exact List.forall_mem_nil _
  | cons hi _ ih =>
    rw [List.forall_mem_cons] at marks ⊢
    exact ⟨⟨hi.kind.trans marks.1, hi.derives⟩, ih marks.2⟩

/-! ### Derivations -/

/-- **Recased tokens derive recased trees**, at the same cost. -/
theorem Derives.recased {c : Category} {ts us : List Token} {e : Expr} {n : Nat}
    (h : Derives c ts e n) (hr : Token.AllRecased kept ts us) :
    ∃ e', Derives c us e' n ∧ e.Recased e' := by
  induction h generalizing us with
  | literal literal =>
    obtain ⟨u, rfl, hu⟩ := hr.singleton_left
    refine ⟨_, .literal (literal.recased hu), ?_⟩
    rw [hu.position]
    exact .constant _ _
  | path kind segments =>
    obtain ⟨u, us, rfl, hu, -⟩ := hr.cons_left (by rw [kind]; decide)
    obtain ⟨names', segments', renames⟩ := segments.renames kind hr
    refine ⟨_, .path (hu.kind.trans kind) segments', ?_⟩
    rw [hu.position]
    exact .property _ renames
  | group openingKind _ closingKind ih =>
    obtain ⟨opening, us, rfl, ho, hr⟩ := hr.cons_left (by rw [openingKind]; decide)
    -- the closing parenthesis is no name, so the list is cut in front of it
    obtain ⟨us, last, rfl, inside, ends⟩ :=
      hr.append_left (noName_cons (by rw [closingKind]; decide))
    obtain ⟨closing, rfl, hc⟩ := ends.singleton_left
    obtain ⟨e', derives, tree⟩ := ih inside
    exact ⟨e', .group (ho.kind.trans openingKind) derives (hc.kind.trans closingKind), tree⟩
  | callEmpty nameKind openingKind closingKind =>
    obtain ⟨name, us, rfl, hn, hr⟩ := hr.cons_left (by rw [nameKind]; decide)
    obtain ⟨opening, us, rfl, ho, hr⟩ := hr.cons_left (by rw [openingKind]; decide)
    obtain ⟨closing, rfl, hc⟩ := hr.singleton_left
    refine ⟨_, .callEmpty (hn.kind.trans nameKind) (ho.kind.trans openingKind)
      (hc.kind.trans closingKind), ?_⟩
    rw [hn.position]
    exact .ofCall _ hn.lower .nil
  | call nameKind openingKind _ commas _ closingKind ihf iho =>
    obtain ⟨name, us, rfl, hn, hr⟩ := hr.cons_left (by rw [nameKind]; decide)
    obtain ⟨opening, us, rfl, ho, hr⟩ := hr.cons_left (by rw [openingKind]; decide)
    have last : NoName [_] := noName_cons (closingKind.trans_ne (by decide))
    -- the first argument ends at a comma or at the parenthesis, the others at the parenthesis
    obtain ⟨us₁, us, rfl, hf, hr⟩ :=
      hr.append_left ((Item.noName_spread (by decide) commas).append last)
    obtain ⟨us₂, us, rfl, hm, ends⟩ := hr.append_left last
    obtain ⟨closing, rfl, hc⟩ := ends.singleton_left
    obtain ⟨e', first, tree⟩ := ihf hf
    obtain ⟨items', rfl, each⟩ :=
      Item.spread_recased (by decide) (by decide) commas (fun i hi => iho i hi) hm
    have others := Item.recased_mem each commas
    rw [← Item.costs_recased each]
    refine ⟨_, .call (hn.kind.trans nameKind) (ho.kind.trans openingKind) first
      (fun i hi => (others i hi).1) (fun i hi => (others i hi).2) (hc.kind.trans closingKind), ?_⟩
    rw [hn.position]
    exact .ofCall _ hn.lower (.cons tree (Item.trees_recased each))
  | side _ ih =>
    obtain ⟨e', derives, tree⟩ := ih hr
    exact ⟨e', .side derives, tree⟩
  | comparison _ kind _ ihl ihr =>
    obtain ⟨us₁, us₂, rfl, hl, hr⟩ := hr.append_left (noName_cons (by simp [kind]))
    obtain ⟨op, us₂, rfl, ho, hr⟩ := hr.cons_left (by simp [kind])
    obtain ⟨l', left, treeLeft⟩ := ihl hl
    obtain ⟨r', right, treeRight⟩ := ihr hr
    refine ⟨_, .comparison left (ho.kind.trans kind) right, ?_⟩
    rw [ho.position]
    exact .comparison _ _ treeLeft treeRight
  | plain _ ih =>
    obtain ⟨e', derives, tree⟩ := ih hr
    exact ⟨e', .plain derives, tree⟩
  | negation kind _ ih =>
    obtain ⟨op, us, rfl, ho, hr⟩ := hr.cons_left (by rw [kind]; decide)
    obtain ⟨e', derives, tree⟩ := ih hr
    refine ⟨_, .negation (ho.kind.trans kind) derives, ?_⟩
    rw [ho.position]
    exact .negation _ tree
  | chain _ words _ ihf iho =>
    -- the first operand ends at a connective, or at the end of the list
    obtain ⟨us₁, us₂, rfl, hf, ho⟩ :=
      hr.append_left (Item.noName_spread (by simp) words)
    obtain ⟨e', first, tree⟩ := ihf hf
    obtain ⟨items', rfl, each⟩ :=
      Item.spread_recased (by simp) (by simp) words (fun i hi => iho i hi) ho
    have others := Item.recased_mem each words
    rw [← Item.costs_recased each]
    exact ⟨_, .chain first (fun i hi => (others i hi).1) fun i hi => (others i hi).2,
      Item.joined_recased each tree⟩

end Grammar

/-! ### Queries -/

/-- The second sort clause is the first one with its path spelled in other cases. -/
structure SortClause.Recased (s s' : SortClause) : Prop where
  renames : Property.Renames s.path s'.path
  direction : s'.direction = s.direction
  position : s'.position = s.position

/-- The second query is the first one with the names spelled in other cases. -/
structure Query.Recased (q q' : Query) : Prop where
  predicate : Option.Rel Expr.Recased q.predicate q'.predicate
  sort : Option.Rel SortClause.Recased q.sort q'.sort
  limit : q'.limit = q.limit

namespace Grammar

variable {kept : Token → Prop} {us : List Token}

theorem DerivesSelection.recased {ts : List Token} {p : Option Expr} {n : Nat}
    (h : DerivesSelection ts p n) (hr : Token.AllRecased kept ts us) :
    ∃ p', DerivesSelection us p' n ∧ Option.Rel Expr.Recased p p' := by
  cases h with
  | all kind =>
    obtain ⟨u, rfl, hu⟩ := hr.singleton_left
    exact ⟨none, .all (hu.kind.trans kind), .none⟩
  | some h =>
    obtain ⟨e', derives, tree⟩ := h.recased hr
    exact ⟨e', .some derives, .some tree⟩

theorem DerivesDirection.noName {ds : List Token} {d : Direction} (h : DerivesDirection ds d) :
    NoName ds := by
  cases h with
  | missing => exact noName_nil
  | ascending kind | descending kind => exact noName_cons (kind.trans_ne (by decide))

theorem DerivesDirection.recased {ds : List Token} {d : Direction} (h : DerivesDirection ds d)
    (hr : Token.AllRecased kept ds us) : DerivesDirection us d := by
  cases h with
  | missing =>
    obtain rfl := hr.nil_left
    exact .missing
  | ascending kind =>
    obtain ⟨u, rfl, hu⟩ := hr.singleton_left
    exact .ascending (hu.kind.trans kind)
  | descending kind =>
    obtain ⟨u, rfl, hu⟩ := hr.singleton_left
    exact .descending (hu.kind.trans kind)

theorem DerivesSort.noName {ss : List Token} {s : Option SortClause} (h : DerivesSort ss s) :
    NoName ss := by
  cases h with
  | missing => exact noName_nil
  | clause barKind => exact noName_cons (barKind.trans_ne (by decide))

/-- A recased sort clause is derived, with its path in other cases. -/
theorem DerivesSort.recased {ss : List Token} {s : Option SortClause} (h : DerivesSort ss s)
    (hr : Token.AllRecased kept ss us) :
    ∃ s', DerivesSort us s' ∧ Option.Rel SortClause.Recased s s' := by
  cases h with
  | missing =>
    obtain rfl := hr.nil_left
    exact ⟨none, .missing, .none⟩
  | clause barKind sortKind firstKind segments direction =>
    obtain ⟨bar, us, rfl, hb, hr⟩ := hr.cons_left (barKind.trans_ne (by decide))
    obtain ⟨sort, us, rfl, hs, hr⟩ := hr.cons_left (sortKind.trans_ne (by decide))
    rw [← List.cons_append] at hr
    obtain ⟨us₁, us₂, rfl, path, hd⟩ := hr.append_left direction.noName
    obtain ⟨first, us₁, rfl, hf, -⟩ := path.cons_left (firstKind.trans_ne (by decide))
    obtain ⟨names', segments', renames⟩ := segments.renames firstKind path
    exact ⟨_, .clause (hb.kind.trans barKind) (hs.kind.trans sortKind) (hf.kind.trans firstKind)
      segments' (direction.recased hd), .some ⟨renames, rfl, hs.position⟩⟩

theorem DerivesLimit.noName {ls : List Token} {l : Option Nat} (h : DerivesLimit ls l) :
    NoName ls := by
  cases h with
  | missing => exact noName_nil
  | clause barKind => exact noName_cons (barKind.trans_ne (by decide))

/-- The number of a limit has no case. -/
theorem DerivesLimit.recased {ls : List Token} {l : Option Nat} (h : DerivesLimit ls l)
    (hr : Token.AllRecased kept ls us) : DerivesLimit us l := by
  cases h with
  | missing =>
    obtain rfl := hr.nil_left
    exact .missing
  | clause barKind limitKind digitsKind shape positive safe =>
    obtain ⟨bar, us, rfl, hb, hr⟩ := hr.cons_left (barKind.trans_ne (by decide))
    obtain ⟨limit, us, rfl, hl, hr⟩ := hr.cons_left (limitKind.trans_ne (by decide))
    obtain ⟨digits, rfl, hd⟩ := hr.singleton_left
    have same := hd.same (.inl (by rw [digitsKind]; rfl))
    rw [← same] at shape positive safe ⊢
    exact .clause (hb.kind.trans barKind) (hl.kind.trans limitKind) (hd.kind.trans digitsKind)
      shape positive safe

/-- **Recased tokens derive recased queries**, at the same cost. -/
theorem DerivesQuery.recased {ts : List Token} {q : Query} {n : Nat} (h : DerivesQuery ts q n)
    (hr : Token.AllRecased kept ts us) : ∃ q', DerivesQuery us q' n ∧ q.Recased q' := by
  cases h with
  | mk selection sorting limiting lastKind =>
    obtain ⟨us, rest, rfl, body, ends⟩ :=
      hr.append_left (noName_cons (lastKind.trans_ne (by decide)))
    obtain ⟨last, rfl, hlast⟩ := ends.singleton_left
    obtain ⟨us₁, us₂, rfl, hp, clauses⟩ :=
      body.append_left (sorting.noName.append limiting.noName)
    obtain ⟨us₂, us₃, rfl, hs, hl⟩ := clauses.append_left limiting.noName
    obtain ⟨p', selection', predicate⟩ := selection.recased hp
    obtain ⟨s', sorting', sort⟩ := sorting.recased hs
    exact ⟨_, .mk selection' sorting' (limiting.recased hl) (hlast.kind.trans lastKind),
      predicate, sort, rfl⟩

end Grammar

end PhotoQuery
