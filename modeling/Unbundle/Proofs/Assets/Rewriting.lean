import Unbundle.Assets
import Unbundle.Proofs.Markup.Splice
import Unbundle.Proofs.Markup.Widening

namespace Unbundle

theorem Marks.WellFormed.apart {page : Text} {ms : Marks} (formed : ms.WellFormed page)
    {a b : Block} (left : a ∈ ms.blocks) (right : b ∈ ms.blocks) (different : a ≠ b) :
    a.stop ≤ b.start ∨ b.stop ≤ a.start := by
  have symmetric : Std.Symm fun a b : Block => a.stop ≤ b.start ∨ b.stop ≤ a.start :=
    ⟨fun _ _ either => either.symm⟩
  have parted : ms.blocks.Pairwise fun a b => a.stop ≤ b.start ∨ b.stop ≤ a.start :=
    formed.ordered.imp Or.inl
  exact parted.forall left right different

namespace Plan

/-- The blocks that leave the page. -/
def moved (p : Plan) : List Block := p.chosen .style ++ p.chosen .script

def span (p : Plan) (b : Block) : Nat × Nat := Markup.lineSpan p.page b.start b.stop

def Deletes (p : Plan) (i : Nat) : Prop := ∃ b ∈ p.moved, (p.span b).1 ≤ i ∧ i < (p.span b).2

instance (p : Plan) (i : Nat) : Decidable (p.Deletes i) :=
  inferInstanceAs (Decidable (∃ b ∈ p.moved, (p.span b).1 ≤ i ∧ i < (p.span b).2))

/-- The reference to the moved blocks of a kind, at the position where it goes. -/
def inserted (p : Plan) (kind : Kind) (i : Nat) : Text :=
  if p.chosen kind ≠ [] ∧ p.position kind = i then Markup.indented p.page i kind.reference else []

/-- What stands in the new page for a position of the old one. -/
def written (p : Plan) (i : Nat) : Text :=
  p.inserted .style i ++ p.inserted .script i ++ if p.Deletes i then [] else p.page[i]?.toList

/-- Nothing of the page is lost, doubled or moved but the blocks and the blanks of their lines. -/
structure Rewrites (p : Plan) (markup : Text) : Prop where
  inside : ∀ b ∈ p.moved, (p.span b).1 ≤ b.start ∧ b.start < b.stop ∧ b.stop ≤ (p.span b).2 ∧
    (p.span b).2 ≤ p.page.length
  apart : p.moved.Pairwise fun a b =>
    (p.span a).2 ≤ (p.span b).1 ∨ (p.span b).2 ≤ (p.span a).1
  blank : ∀ i s, p.Deletes i → p.page[i]? = some s → (∃ b ∈ p.moved, b.Covers i) ∨ s.isBlank
  placed : ∀ kind, p.position kind ≤ p.page.length
  reads : markup = (List.range (p.page.length + 1)).flatMap p.written

variable {p : Plan}

theorem chosen_sublist (p : Plan) (kind : Kind) : (p.chosen kind).Sublist p.marks.blocks := by
  have found : (p.found kind).Sublist p.marks.blocks := List.filter_sublist
  unfold chosen
  split
  · exact found
  · exact (List.take_sublist 1 _).trans found

theorem suited_of_chosen {kind : Kind} {b : Block} (member : b ∈ p.chosen kind) :
    b.kind = kind ∧ b.isExtractable := by
  have found : b ∈ p.found kind := by
    unfold chosen at member
    split at member
    · exact member
    · exact List.mem_of_mem_take member
  simpa using List.of_mem_filter found

theorem mem_blocks_of_moved {b : Block} (member : b ∈ p.moved) : b ∈ p.marks.blocks := by
  rcases List.mem_append.mp member with member | member
  · exact (p.chosen_sublist .style).subset member
  · exact (p.chosen_sublist .script).subset member

theorem moved_parted (formed : p.marks.WellFormed p.page) :
    p.moved.Pairwise fun a b => a.stop ≤ b.start ∨ b.stop ≤ a.start := by
  have parted : p.marks.blocks.Pairwise fun a b => a.stop ≤ b.start ∨ b.stop ≤ a.start :=
    formed.ordered.imp Or.inl
  refine List.pairwise_append.mpr ⟨parted.sublist (p.chosen_sublist .style),
    parted.sublist (p.chosen_sublist .script), ?_⟩
  intro a style b script
  have different : a ≠ b := by
    intro equal
    subst equal
    have same := (suited_of_chosen style).1.symm.trans (suited_of_chosen script).1
    cases same
  exact formed.apart ((p.chosen_sublist .style).subset style)
    ((p.chosen_sublist .script).subset script) different

theorem span_widens (formed : p.marks.WellFormed p.page) {b : Block} (member : b ∈ p.moved) :
    Markup.Widens p.page b.start b.stop (p.span b) :=
  Markup.lineSpan_widens (formed.blocks b (mem_blocks_of_moved member)).stop_le

theorem span_bounds (formed : p.marks.WellFormed p.page) {b : Block} (member : b ∈ p.moved) :
    (p.span b).1 ≤ b.start ∧ b.start < b.stop ∧ b.stop ≤ (p.span b).2 ∧
      (p.span b).2 ≤ p.page.length := by
  have widens := span_widens formed member
  have block := formed.blocks b (mem_blocks_of_moved member)
  exact ⟨widens.start_le, block.start_lt_stop, widens.le_stop, widens.inside⟩

theorem spans_apart (formed : p.marks.WellFormed p.page) :
    p.moved.Pairwise fun a b => (p.span a).2 ≤ (p.span b).1 ∨ (p.span b).2 ≤ (p.span a).1 := by
  refine (moved_parted formed).imp_of_mem ?_
  intro a b left right parted
  have a_formed := formed.blocks a (mem_blocks_of_moved left)
  have b_formed := formed.blocks b (mem_blocks_of_moved right)
  have a_widens := span_widens formed left
  have b_widens := span_widens formed right
  rcases parted with ordered | ordered
  · exact .inl (a_widens.apart b_widens a_formed b_formed ordered)
  · exact .inr (b_widens.apart a_widens b_formed a_formed ordered)

theorem deleted_blank (formed : p.marks.WellFormed p.page) {i : Nat} {s : Sym}
    (deleted : p.Deletes i) (stands : p.page[i]? = some s) :
    (∃ b ∈ p.moved, b.Covers i) ∨ s.isBlank := by
  obtain ⟨b, member, behind, before⟩ := deleted
  have widens := span_widens formed member
  by_cases early : i < b.start
  · exact .inr (widens.lead i s behind early stands).1
  · by_cases late : b.stop ≤ i
    · exact .inr (widens.trail i s late before stands)
    · exact .inl ⟨b, member, Nat.le_of_not_lt early, Nat.lt_of_not_le late⟩

theorem position_le (formed : p.marks.WellFormed p.page) (kind : Kind) :
    p.position kind ≤ p.page.length := by
  have tag : ∀ i, p.marks.MarksTag i → i ≤ p.page.length := fun i marked =>
    Nat.le_of_lt (Markup.position_lt (formed.tags i marked).1)
  have tagEnd : ∀ i, p.marks.htmlOpenEnd? = some i ∨ p.marks.doctypeEnd? = some i →
      i ≤ p.page.length := fun i marked => (formed.tagEnds i marked).2.1
  have bound : ∀ (place : Option Nat) (other : Nat), (∀ i, place = some i → i ≤ p.page.length) →
      other ≤ p.page.length → place.getD other ≤ p.page.length := by
    intro place other found default
    cases place with
    | none => exact default
    | some i => exact found i rfl
  cases kind with
  | style =>
    refine bound _ 0 ?_ (Nat.zero_le _)
    intro i found
    simp only [Option.or_eq_some_iff] at found
    rcases found with ((head | ⟨_, body⟩) | ⟨_, html⟩) | ⟨_, doctype⟩
    · exact tag i (.inl head)
    · exact tag i (.inr (.inl body))
    · exact tagEnd i (.inl html)
    · exact tagEnd i (.inr doctype)
  | script =>
    refine bound _ _ ?_ (Nat.le_refl _)
    intro i found
    rcases Option.or_eq_some_iff.mp found with body | ⟨_, html⟩
    · exact tag i (.inr (.inr (.inl body)))
    · exact tag i (.inr (.inr (.inr html)))

def removal (p : Plan) (b : Block) : Edit := ⟨(p.span b).1, (p.span b).2, []⟩

theorem edits_eq (p : Plan) :
    p.edits = p.moved.map p.removal ++ (p.references .style ++ p.references .script) := by
  rw [moved, List.map_append, ← List.append_assoc]
  rfl

theorem reference_cases {kind : Kind} {e : Edit} (member : e ∈ p.references kind) :
    e.start = p.position kind ∧ e.stop = p.position kind := by
  unfold references at member
  split at member
  · cases member
  · cases List.mem_singleton.mp member
    exact ⟨rfl, rfl⟩

theorem edit_cases {e : Edit} (member : e ∈ p.edits) :
    (∃ b ∈ p.moved, p.removal b = e) ∨
      ∃ kind, e.start = p.position kind ∧ e.stop = p.position kind := by
  rw [edits_eq] at member
  rcases List.mem_append.mp member with removed | inserted
  · exact .inl (List.mem_map.mp removed)
  · rcases List.mem_append.mp inserted with style | script
    · exact .inr ⟨.style, reference_cases style⟩
    · exact .inr ⟨.script, reference_cases script⟩

theorem edits_fit (formed : p.marks.WellFormed p.page) : ∀ e ∈ p.edits, e.Fits p.page := by
  intro e member
  rcases edit_cases member with ⟨b, found, rfl⟩ | ⟨kind, start, stop⟩
  · have widens := span_widens formed found
    have block := formed.blocks b (mem_blocks_of_moved found)
    have nonempty : b.start ≤ b.stop := by
      have opening := block.start_lt
      have content := block.content_le
      have closing := block.content_lt
      omega
    have ordered := widens.start_le.trans (nonempty.trans widens.le_stop)
    exact ⟨ordered, ordered.trans widens.inside⟩
  · have bound := position_le formed kind
    constructor <;> omega

theorem due_references (p : Plan) (kind : Kind) (i : Nat) :
    Edit.due (p.references kind) i = p.inserted kind i := by
  unfold references inserted
  by_cases empty : p.chosen kind = []
  · simp [empty, Edit.due]
  · have some_block : (p.chosen kind).isEmpty = false := List.isEmpty_eq_false_iff.mpr empty
    rw [some_block]
    by_cases here : p.position kind = i
    · subst here
      simp [empty, Edit.due, Edit.insertion]
    · simp [here, Edit.due, Edit.insertion]

theorem due_edits (p : Plan) (i : Nat) :
    Edit.due (p.edits.mergeSort Edit.le) i = p.inserted .style i ++ p.inserted .script i := by
  have plain : ∀ e ∈ p.edits, e.replacement = [] ∨ e.stop = e.start := by
    intro e member
    rcases edit_cases member with ⟨b, found, rfl⟩ | ⟨kind, start, stop⟩
    · exact .inl rfl
    · exact .inr (stop.trans start.symm)
  have silent : ∀ e ∈ p.moved.map p.removal, e.start = i → e.replacement = [] := by
    intro e member _
    obtain ⟨b, _, rfl⟩ := List.mem_map.mp member
    rfl
  rw [Edit.due_mergeSort plain, edits_eq, Edit.due_append, Edit.due_append,
    Edit.due_eq_nil silent, due_references, due_references, List.nil_append]

theorem deletes_iff (p : Plan) (i : Nat) : p.Deletes i ↔ ∃ e ∈ p.edits, e.Covers i := by
  constructor
  · intro deleted
    obtain ⟨b, member, covered⟩ := deleted
    refine ⟨p.removal b, ?_, covered⟩
    rw [edits_eq]
    exact List.mem_append_left _ (List.mem_map_of_mem member)
  · intro covered
    obtain ⟨e, member, behind, before⟩ := covered
    rcases edit_cases member with ⟨b, found, rfl⟩ | ⟨kind, start, stop⟩
    · exact ⟨b, found, behind, before⟩
    · omega

theorem kept_edits (p : Plan) (i : Nat) :
    Edit.kept p.page p.edits i = if p.Deletes i then [] else p.page[i]?.toList := by
  unfold Edit.kept
  by_cases deleted : p.Deletes i
  · obtain ⟨e, member, covered⟩ := (p.deletes_iff i).mp deleted
    rw [if_pos deleted, if_neg]
    intro spared
    exact spared e member covered
  · rw [if_neg deleted, if_pos]
    intro e member covered
    exact deleted ((p.deletes_iff i).mpr ⟨e, member, covered⟩)

theorem assets_reads (formed : p.marks.WellFormed p.page) :
    p.assets.markup = (List.range (p.page.length + 1)).flatMap p.written := by
  change Edit.applyAll p.page p.edits = _
  rw [Edit.applyAll_eq p.page (edits_fit formed)]
  apply List.flatMap_congr
  intro i _
  rw [due_edits, kept_edits, written]

end Plan

/-- The spans that are deleted lie in the page, keep apart and hold nothing but moved blocks and
    blanks. The markup is the rest of the page, symbol by symbol, with the references put in. -/
theorem Assets.ofText_rewrites (page : Text) (all : Bool) :
    (Plan.make page all).Rewrites (Assets.ofText page all).markup := by
  have formed : (Plan.make page all).marks.WellFormed (Plan.make page all).page :=
    Markup.scan_marks_wellFormed page
  constructor
  · intro b member
    exact Plan.span_bounds formed member
  · exact Plan.spans_apart formed
  · intro i s deleted stands
    exact Plan.deleted_blank formed deleted stands
  · exact Plan.position_le formed
  · exact Plan.assets_reads formed

end Unbundle
