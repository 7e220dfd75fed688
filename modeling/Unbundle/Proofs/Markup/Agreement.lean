import Unbundle.Proofs.Markup.Alike

namespace Unbundle

def Block.bare (b : Block) : Block := { b with attributes := [] }

def Mark.bare : Mark → Mark
  | .block b => .block b.bare
  | m => m

namespace Markup.Cursor

structure Alike (c d : Cursor) : Prop where
  pos : c.pos = d.pos
  rest : Text.Alike markChars c.rest d.rest
  low : Text.Alike tagChars c.low d.low

namespace Alike

variable {c d : Cursor}

theorem advance (alike : c.Alike d) (n : Nat) : (c.advance n).Alike (d.advance n) :=
  ⟨by simp [Cursor.advance, alike.pos], alike.rest.drop n, alike.low.drop n⟩

theorem toTag? (alike : c.Alike d) : Option.Rel Alike c.toTag? d.toTag? := by
  unfold Cursor.toTag?
  rw [alike.rest.findIdx? (.scalar '<') (by decide)]
  cases List.findIdx? (· == .scalar '<') d.rest with
  | none => exact .none
  | some n => exact .some (alike.advance n)

theorem startsWith (alike : c.Alike d) (t : Text) (seen : ∀ x ∈ t, x.isOneOf tagChars) :
    c.startsWith t = d.startsWith t :=
  alike.low.isPrefixOf t seen

theorem opens (alike : c.Alike d) (name : Text) (seen : ∀ x ∈ name, x.isOneOf tagChars) :
    c.opens name = d.opens name :=
  (alike.low.drop 1).namesTag name seen

theorem closes (alike : c.Alike d) (name : Text) (seen : ∀ x ∈ name, x.isOneOf tagChars) :
    c.closes name = d.closes name :=
  alike.low.closes name seen

theorem tagEnd? (alike : c.Alike d) :
    Markup.tagEnd? none (c.rest.drop 1) = Markup.tagEnd? none (d.rest.drop 1) :=
  (alike.rest.drop 1).tagEnd? fun _ open_ => nomatch open_

theorem blockKind? (alike : c.Alike d) : c.blockKind? = d.blockKind? := by
  simp only [Cursor.blockKind?, alike.opens _ (Kind.name_seen _)]

theorem readBlock (alike : c.Alike d) (kind : Kind) :
    (c.readBlock kind).1.bare = (d.readBlock kind).1.bare ∧
      (c.readBlock kind).2 = (d.readBlock kind).2 := by
  simp only [Cursor.readBlock, alike.tagEnd?]
  cases Markup.tagEnd? none (d.rest.drop 1) with
  | none => exact ⟨rfl, rfl⟩
  | some n =>
    simp only [(alike.low.drop (n + 2)).closing? kind.name kind.name_seen]
    cases closing? kind.name (d.low.drop (n + 2)) with
    | none => exact ⟨rfl, rfl⟩
    | some k =>
      simp only [(alike.rest.drop (n + 2 + k)).findIdx? (.scalar '>') (by decide)]
      cases List.findIdx? (· == .scalar '>') (d.rest.drop (n + 2 + k)) with
      | none => exact ⟨rfl, rfl⟩
      | some m => simp [Mark.bare, Block.bare, alike.pos]

theorem landmark? (alike : c.Alike d) : c.landmark? = d.landmark? := by
  unfold Cursor.landmark?
  rw [alike.opens "html" (by decide), alike.opens "body" (by decide),
    alike.closes "head" (by decide), alike.closes "body" (by decide),
    alike.closes "html" (by decide), alike.tagEnd?, alike.pos]

theorem readTag (alike : c.Alike d) :
    c.readTag.map (fun read => (read.1.map Mark.bare, read.2)) =
      d.readTag.map (fun read => (read.1.map Mark.bare, read.2)) := by
  unfold Cursor.readTag
  rw [alike.startsWith "<!--" (by decide), alike.startsWith "<!" (by decide),
    alike.startsWith "<?" (by decide), (alike.rest.drop 4).find? "-->" (by decide),
    alike.rest.findIdx? (.scalar '>') (by decide), alike.blockKind?, alike.landmark?,
    (alike.low.drop 2).namesTag "doctype" (by decide), alike.pos]
  split
  · rfl
  · split
    · rfl
    · split
      · rename_i kind _
        obtain ⟨mark, reach⟩ := alike.readBlock kind
        simp [mark, reach]
      · rfl

theorem next? (alike : c.Alike d) :
    Option.Rel (fun p q => p.1.map Mark.bare = q.1.map Mark.bare ∧ p.2.Alike q.2)
      c.next? d.next? := by
  unfold Cursor.next?
  have toTag := alike.toTag?
  generalize c.toTag? = left, d.toTag? = right at toTag
  cases toTag with
  | none => exact .none
  | some tags =>
    rename_i tag tag'
    have same := tags.readTag
    simp only [Option.bind_some]
    cases read : tag.readTag with
    | none =>
      rw [read, Option.map_none, eq_comm, Option.map_eq_none_iff] at same
      rw [same]
      exact .none
    | some p =>
      rw [read, Option.map_some, eq_comm, Option.map_eq_some_iff] at same
      obtain ⟨q, read', equal⟩ := same
      rw [read']
      simp only [Prod.mk.injEq] at equal
      refine .some ⟨equal.1.symm, ?_⟩
      dsimp only
      rw [equal.2]
      exact tags.advance (p.2 + 1)

theorem marks (alike : c.Alike d) : c.marks.map Mark.bare = d.marks.map Mark.bare := by
  obtain ⟨visited, run⟩ := run_marks c
  obtain ⟨visited', run'⟩ := run_marks d
  generalize c.marks = ms at run
  generalize d.marks = ns at run'
  induction run generalizing d visited' ns with
  | done last =>
    cases run' with
    | done last' => rfl
    | step next rest =>
      have related := alike.next?
      rw [last, next] at related
      cases related
  | step next rest ih =>
    have related := alike.next?
    rw [next] at related
    cases run' with
    | done last' =>
      rw [last'] at related
      cases related
    | step next' rest' =>
      rw [next'] at related
      cases related with
      | some both =>
        rw [List.map_append, List.map_append, ih both.2 _ _ rest', ← Option.toList_map,
          ← Option.toList_map, both.1]

end Alike

end Markup.Cursor

/-- The kind of a block and its positions, which is all but the attributes. -/
def Block.extent (b : Block) : Kind × Nat × Nat × Nat × Nat :=
  (b.kind, b.start, b.contentStart, b.contentEnd, b.stop)

/-- Two scans find the same places, the same unclosed element and blocks of the same extent. -/
structure Marks.Agree (ms ns : Marks) : Prop where
  doctypeEnd : ms.doctypeEnd? = ns.doctypeEnd?
  htmlOpenEnd : ms.htmlOpenEnd? = ns.htmlOpenEnd?
  headClose : ms.headClose? = ns.headClose?
  bodyOpen : ms.bodyOpen? = ns.bodyOpen?
  bodyClose : ms.bodyClose? = ns.bodyClose?
  htmlClose : ms.htmlClose? = ns.htmlClose?
  unclosed : ms.unclosed? = ns.unclosed?
  blocks : ms.blocks.map Block.extent = ns.blocks.map Block.extent

namespace Marks

theorem first?_bare {α : Type} (ms : Marks) {view : Mark → Option α}
    (blind : ∀ m, view m.bare = view m) : first? (ms.map Mark.bare) view = ms.first? view := by
  simp only [first?, List.findSome?_map, Function.comp_def, blind]

theorem last?_bare {α : Type} (ms : Marks) {view : Mark → Option α}
    (blind : ∀ m, view m.bare = view m) : last? (ms.map Mark.bare) view = ms.last? view := by
  simp only [last?, ← List.map_reverse, List.findSome?_map, Function.comp_def, blind]

theorem blocks_bare (ms : Marks) :
    (blocks (ms.map Mark.bare)).map Block.extent = ms.blocks.map Block.extent := by
  simp only [blocks, List.filterMap_map, List.map_filterMap]
  congr 1
  funext m
  cases m <;> rfl

theorem agree_of_bare {ms ns : Marks} (same : ms.map Mark.bare = ns.map Mark.bare) :
    ms.Agree ns := by
  have first : ∀ {α : Type} {view : Mark → Option α}, (∀ m, view m.bare = view m) →
      ms.first? view = ns.first? view := by
    intro α view blind
    rw [← first?_bare ms blind, same, first?_bare ns blind]
  have last : ∀ {α : Type} {view : Mark → Option α}, (∀ m, view m.bare = view m) →
      ms.last? view = ns.last? view := by
    intro α view blind
    rw [← last?_bare ms blind, same, last?_bare ns blind]
  exact {
    doctypeEnd := first fun m => by cases m <;> rfl
    htmlOpenEnd := first fun m => by cases m <;> rfl
    headClose := first fun m => by cases m <;> rfl
    bodyOpen := first fun m => by cases m <;> rfl
    bodyClose := last fun m => by cases m <;> rfl
    htmlClose := last fun m => by cases m <;> rfl
    unclosed := last fun m => by cases m <;> rfl
    blocks := by rw [← blocks_bare ms, same, blocks_bare ns] }

end Marks

/-- The same ASCII symbol, or two symbols that are not ASCII. -/
def Sym.SameAscii (s t : Sym) : Prop := s = t ∨ s.isAscii = false ∧ t.isAscii = false

theorem Sym.SameAscii.among {s t : Sym} (same : s.SameAscii t) {cs : List Char}
    (ascii : ∀ c ∈ cs, c.toNat < 0x80) : s.among cs = t.among cs := by
  rcases same with rfl | ⟨left, right⟩
  · rfl
  · rw [among_eq_none ascii left, among_eq_none ascii right]

theorem Sym.SameAscii.lower_among {s t : Sym} (same : s.SameAscii t)
    (dotted : s = .dottedI ↔ t = .dottedI) :
    s.lower.map (Sym.among tagChars) = t.lower.map (Sym.among tagChars) := by
  rcases same with rfl | ⟨left, right⟩
  · rfl
  · by_cases here : s = .dottedI
    · rw [here, dotted.mp here]
    · rw [Sym.lower_among here, Sym.lower_among (mt dotted.mpr here),
        asciiLower_of_not_ascii left, asciiLower_of_not_ascii right, among_tagChars left,
        among_tagChars right]

namespace Text

/-- Pages that hold the same ASCII symbols, and U+0130, in the same places. -/
def Indistinct (a b : Text) : Prop :=
  List.Forall₂ (fun s t => s.SameAscii t ∧ (s = .dottedI ↔ t = .dottedI)) a b

theorem indistinct_of_dottedI {a b : Text} (same : List.Forall₂ Sym.SameAscii a b)
    (dotted : ∀ i : Nat, a[i]? = some .dottedI ↔ b[i]? = some .dottedI) : Indistinct a b := by
  induction same with
  | nil => exact .nil
  | cons here rest ih =>
    have first := dotted 0
    simp only [List.getElem?_cons_zero, Option.some.injEq] at first
    refine .cons ⟨here, first⟩ (ih ?_)
    intro i
    simpa only [List.getElem?_cons_succ] using dotted (i + 1)

theorem Indistinct.alike {a b : Text} (same : Indistinct a b) : Alike markChars a b :=
  List.Forall₂.imp (fun _ _ both => both.1.among (by simp [markChars])) same

theorem Indistinct.lower_alike {a b : Text} (same : Indistinct a b) :
    Alike tagChars a.lower b.lower := by
  rw [alike_iff_map, lower, lower, lowerAfter_among, lowerAfter_among]
  induction same with
  | nil => rfl
  | cons both rest ih =>
    rw [List.flatMap_cons, List.flatMap_cons, ih, both.1.lower_among both.2]

end Text

namespace Markup

theorem agree_of_indistinct {a b : Text} (same : Text.Indistinct a b) :
    (scan a).Agree (scan b) := by
  have alike : (Cursor.ofText a).Alike (Cursor.ofText b) := ⟨rfl, same.alike, same.lower_alike⟩
  exact Marks.agree_of_bare alike.marks

theorem forall₂_exchange {R : Sym → Sym → Prop} (same : ∀ s, R s s) {s t : Sym} (related : R s t)
    (before behind : Text) : List.Forall₂ R (before ++ s :: behind) (before ++ t :: behind) :=
  have refl : ∀ u : Text, List.Forall₂ R u u := fun _ => List.forall₂_same.mpr fun x _ => same x
  List.rel_append (refl before) (.cons related (refl behind))

theorem indistinct_exchange {s t : Sym} (same : s.SameAscii t)
    (dotted : s = .dottedI ↔ t = .dottedI) (before behind : Text) :
    Text.Indistinct (before ++ s :: behind) (before ++ t :: behind) :=
  forall₂_exchange (fun _ => ⟨.inl rfl, Iff.rfl⟩) ⟨same, dotted⟩ before behind

def styleAround (s : Sym) : Text := "<style>" ++ s :: ("</style>" : Text)

theorem cut_around {s : Sym} (notAscii : s.isAscii = false) (plain : s ≠ .dottedI) :
    (scan (styleAround s)).blocks.map Block.extent = [(.style, 0, 7, 8, 16)] := by
  have accented : (scan (styleAround (.scalar 'é'))).blocks.map Block.extent =
      [(.style, 0, 7, 8, 16)] := by decide +kernel
  rw [← accented]
  have same : s.SameAscii (.scalar 'é') := .inr ⟨notAscii, by decide⟩
  have dotted : s = .dottedI ↔ Sym.scalar 'é' = .dottedI :=
    ⟨fun same => absurd same plain, fun same => absurd same (by decide)⟩
  exact (agree_of_indistinct (indistinct_exchange same dotted _ _)).blocks

theorem cut_around_dottedI :
    (scan (styleAround .dottedI)).blocks.map Block.extent = [(.style, 0, 7, 9, 16)] := by
  decide +kernel

theorem cut_differs {s : Sym} (notAscii : s.isAscii = false) (plain : s ≠ .dottedI) :
    (scan (styleAround s)).blocks.map Block.extent ≠
      (scan (styleAround .dottedI)).blocks.map Block.extent := by
  rw [cut_around notAscii plain, cut_around_dottedI]
  decide

/-- Symbols outside of ASCII are all one to a scan, apart from U+0130: it has to stand in the same
    places, and no page around it makes up for it. -/
theorem scan_tells_dottedI_only {a b : Text} (same : List.Forall₂ Sym.SameAscii a b) {s t : Sym}
    (exchanged : s.SameAscii t) :
    ((∀ i : Nat, a[i]? = some .dottedI ↔ b[i]? = some .dottedI) → (scan a).Agree (scan b)) ∧
      ((∀ before behind, (scan (before ++ s :: behind)).Agree (scan (before ++ t :: behind))) ↔
        (s = .dottedI ↔ t = .dottedI)) := by
  constructor
  · intro dotted
    exact agree_of_indistinct (Text.indistinct_of_dottedI same dotted)
  · constructor
    · intro agree
      have cut := (agree "<style>" "</style>").blocks
      rcases exchanged with equal | ⟨left, right⟩
      · rw [equal]
      · constructor
        · intro here
          subst here
          by_contra plain
          exact cut_differs right plain cut.symm
        · intro there
          subst there
          by_contra plain
          exact cut_differs left plain cut
    · intro dotted before behind
      exact agree_of_indistinct (indistinct_exchange exchanged dotted before behind)

theorem scan_tells_dottedI_only_of_accent :
    (scan (styleAround (.scalar 'é'))).Agree (scan (styleAround (.scalar 'Σ'))) ∧
      ¬ ∀ before behind, (scan (before ++ .scalar 'é' :: behind)).Agree
        (scan (before ++ .dottedI :: behind)) := by
  have same : List.Forall₂ Sym.SameAscii (styleAround (.scalar 'é')) (styleAround (.scalar 'Σ')) :=
    forall₂_exchange (fun _ => .inl rfl) (.inr ⟨by decide, by decide⟩) _ _
  have exchanged : Sym.SameAscii (.scalar 'é') .dottedI := .inr ⟨by decide, by decide⟩
  obtain ⟨agree, contexts⟩ := scan_tells_dottedI_only same exchanged
  constructor
  · apply agree
    intro i
    constructor
    · intro stands
      exact absurd (List.mem_of_getElem? stands) (by decide)
    · intro stands
      exact absurd (List.mem_of_getElem? stands) (by decide)
  · rw [contexts]
    decide

/-- Pages with the same ASCII symbols in the same places whose blocks are cut differently. -/
theorem scan_tells_dottedI_from_accent :
    List.Forall₂ Sym.SameAscii (styleAround (.scalar 'é')) (styleAround .dottedI) ∧
      ¬ (scan (styleAround (.scalar 'é'))).Agree (scan (styleAround .dottedI)) := by
  refine ⟨forall₂_exchange (fun _ => .inl rfl) (.inr ⟨by decide, by decide⟩) _ _, ?_⟩
  intro agree
  exact cut_differs (by decide) (by decide) agree.blocks

end Markup

end Unbundle
