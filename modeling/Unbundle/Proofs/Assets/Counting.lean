import Mathlib.Algebra.BigOperators.Group.Finset.Basic
import Mathlib.Algebra.Order.BigOperators.Group.Finset
import Unbundle.Proofs.Assets.Stretch
import Unbundle.Proofs.Markup.Element

namespace Unbundle

open Finset in
theorem Text.count_flatMap_range (f : Nat → Text) (n : Nat) (s : Sym) :
    ((List.range n).flatMap f).count s = ∑ x ∈ range n, (f x).count s := by
  induction n with
  | zero => rfl
  | succ n ih =>
    rw [List.range_succ, List.flatMap_append, List.count_append, ih, List.flatMap_singleton,
      sum_range_succ]

theorem Text.count_eq_sum (page : Text) (s : Sym) :
    page.count s = ∑ x ∈ Finset.range (page.length + 1), page[x]?.toList.count s := by
  have whole := Text.slice_eq_flatMap page 0 (Nat.le_refl 0) (page.length + 1)
  rw [Nat.zero_add, page.slice_eq_drop (Nat.le_succ _), List.drop_zero,
    ← List.range_eq_range'] at whole
  simp only [Nat.zero_le, if_true] at whole
  rw [← Text.count_flatMap_range, ← whole]

namespace Plan

variable {p : Plan}

def referenceTags (p : Plan) (kind : Kind) : Nat :=
  if p.chosen kind = [] then 0 else kind.reference.count (.scalar '<')

def goneTags (p : Plan) : Finset Nat :=
  (Finset.range (p.page.length + 1)).filter fun x =>
    p.Deletes x ∧ p.page[x]? = some (.scalar '<')

theorem count_inserted (formed : p.marks.WellFormed p.page) (kind : Kind) :
    ∑ x ∈ Finset.range (p.page.length + 1), (p.inserted kind x).count (.scalar '<') =
      p.referenceTags kind := by
  have bound := position_le formed kind
  rw [Finset.sum_eq_single (p.position kind)]
  · unfold referenceTags
    by_cases none : p.chosen kind = []
    · simp [inserted, none]
    · obtain ⟨before, behind, parts, front, back⟩ := inserted_at none
      have quiet : ∀ t : Text, t.isBlank → t.count (.scalar '<') = 0 := fun t blank =>
        List.count_eq_zero_of_not_mem (Text.not_mem_of_isBlank blank (by decide))
      rw [if_neg none, parts, List.count_append, List.count_append, quiet _ front, quiet _ back,
        Nat.zero_add, Nat.add_zero]
  · intro x _ elsewhere
    rw [inserted_of_ne (Ne.symm elsewhere)]
    rfl
  · intro outside
    exact absurd (Finset.mem_range.mpr (by omega)) outside

theorem count_written (p : Plan) (x : Nat) :
    (p.written x).count (.scalar '<') +
        (if p.Deletes x ∧ p.page[x]? = some (.scalar '<') then 1 else 0) =
      p.page[x]?.toList.count (.scalar '<') +
        ((p.inserted .style x).count (.scalar '<') +
          (p.inserted .script x).count (.scalar '<')) := by
  rw [written_eq, inserts, List.count_append, List.count_append]
  have symbol : p.page[x]?.toList.count (.scalar '<') =
      if p.page[x]? = some (.scalar '<') then 1 else 0 := by
    cases p.page[x]? with
    | none => rfl
    | some s => simp [List.count_singleton]
  by_cases gone : p.Deletes x
  · rw [if_pos gone, symbol]
    simp only [gone, true_and, List.count_nil]
    omega
  · rw [if_neg gone, if_neg fun both => gone both.1]
    omega

theorem count_markup (formed : p.marks.WellFormed p.page) :
    p.assets.markup.count (.scalar '<') + p.goneTags.card =
      p.page.count (.scalar '<') + (p.referenceTags .style + p.referenceTags .script) := by
  rw [assets_reads formed, Text.count_flatMap_range, goneTags, Finset.card_filter,
    ← Finset.sum_add_distrib, Text.count_eq_sum p.page, ← count_inserted formed .style,
    ← count_inserted formed .script, ← Finset.sum_add_distrib, ← Finset.sum_add_distrib]
  exact Finset.sum_congr rfl fun x _ => p.count_written x

def tagsOf (b : Block) : List Nat := [b.start, b.contentEnd]

section Plain

variable (scanned : p.marks = Markup.scan p.page) (plain : Sym.dottedI ∉ p.page)

include scanned

theorem formed_of_scanned : p.marks.WellFormed p.page := by
  rw [scanned]
  exact Markup.scan_marks_wellFormed p.page

include plain

theorem element_of_moved {b : Block} (member : b ∈ p.moved) :
    Markup.IsElement p.page b.kind b.start b.contentStart b.contentEnd b.stop := by
  have found := mem_blocks_of_moved member
  rw [scanned] at found
  exact Markup.isElement_of_mem plain found

theorem closing_of_moved {b : Block} (member : b ∈ p.moved) :
    p.page[b.contentEnd]? = some (.scalar '<') ∧
      p.page[b.contentEnd + 1]? = some (.scalar '/') := by
  have closes := (element_of_moved scanned plain member).content.1.2.1
  exact ⟨Text.getElem?_of_begins closes (x := 0) rfl, Text.getElem?_of_begins closes (x := 1) rfl⟩

theorem tagsOf_bounds {b : Block} (member : b ∈ p.moved) :
    ∀ x ∈ tagsOf b, b.start ≤ x ∧ x < b.stop ∧ p.page[x]? = some (.scalar '<') := by
  have formed := (formed_of_scanned scanned).blocks b (mem_blocks_of_moved member)
  have opening := formed.start_lt
  have content := formed.content_le
  have closing := formed.content_lt
  intro x tag
  simp only [tagsOf, List.mem_cons, List.not_mem_nil, or_false] at tag
  rcases tag with rfl | rfl
  · exact ⟨Nat.le_refl _, formed.start_lt_stop, formed.opened⟩
  · exact ⟨by omega, closing, (closing_of_moved scanned plain member).1⟩

theorem tagsOf_subset : ∀ x ∈ p.moved.flatMap tagsOf, x ∈ p.goneTags := by
  intro x member
  obtain ⟨b, moved, tag⟩ := List.mem_flatMap.mp member
  obtain ⟨behind, before, bracket⟩ := tagsOf_bounds scanned plain moved x tag
  obtain ⟨first, _, last, inside⟩ := span_bounds (formed_of_scanned scanned) moved
  refine Finset.mem_filter.mpr ⟨Finset.mem_range.mpr (by omega), ⟨b, moved, ?_, ?_⟩, bracket⟩
  · omega
  · omega

theorem tagsOf_nodup : (p.moved.flatMap tagsOf).Nodup := by
  rw [List.nodup_flatMap]
  constructor
  · intro b member
    have formed := (formed_of_scanned scanned).blocks b (mem_blocks_of_moved member)
    have opening := formed.start_lt
    have content := formed.content_le
    simp only [tagsOf, List.nodup_cons, List.mem_singleton, List.not_mem_nil, not_false_eq_true,
      List.nodup_nil, and_true]
    omega
  · refine (moved_parted (formed_of_scanned scanned)).imp_of_mem ?_
    intro a b left right parted x first second
    have a_bounds := tagsOf_bounds scanned plain left x first
    have b_bounds := tagsOf_bounds scanned plain right x second
    omega

theorem card_goneTags : 2 * p.moved.length ≤ p.goneTags.card := by
  have length : (p.moved.flatMap tagsOf).length = 2 * p.moved.length := by
    rw [List.length_flatMap]
    simp [tagsOf, Nat.mul_comm]
  rw [← length, ← List.toFinset_card_of_nodup (tagsOf_nodup scanned plain)]
  apply Finset.card_le_card
  intro x member
  exact tagsOf_subset scanned plain x (List.mem_toFinset.mp member)

theorem goneTags_eq {b : Block} (single : p.moved = [b]) (few : p.goneTags.card = 2) :
    ∀ x, p.Deletes x → p.page[x]? = some (.scalar '<') → x = b.start ∨ x = b.contentEnd := by
  have nodup := tagsOf_nodup scanned plain
  have subset := tagsOf_subset scanned plain
  rw [single, List.flatMap_singleton] at nodup subset
  -- The two tags of the block are as many as leave the page at all.
  have all : (tagsOf b).toFinset = p.goneTags := by
    apply Finset.eq_of_subset_of_card_le
    · intro x member
      exact subset x (List.mem_toFinset.mp member)
    · rw [few, List.toFinset_card_of_nodup nodup]
      exact Nat.le_refl 2
  intro x gone bracket
  have short := Markup.position_lt bracket
  have member : x ∈ p.goneTags :=
    Finset.mem_filter.mpr ⟨Finset.mem_range.mpr (by omega), gone, bracket⟩
  rw [← all] at member
  simpa [tagsOf] using member

/-- The number of `<` falls, or a single script is moved and takes no more than its two tags. -/
theorem count_falls (some_moved : p.moved ≠ []) :
    p.assets.markup.count (.scalar '<') < p.page.count (.scalar '<') ∨
      p.assets.markup.count (.scalar '<') = p.page.count (.scalar '<') ∧
        p.chosen .style = [] ∧ (∃ b, p.chosen .script = [b]) ∧ p.goneTags.card = 2 := by
  have balance := count_markup (formed_of_scanned scanned)
  have gone := card_goneTags scanned plain
  have style : Kind.style.reference.count (.scalar '<') = 1 := by decide
  have script : Kind.script.reference.count (.scalar '<') = 2 := by decide
  unfold referenceTags at balance
  rw [style, script] at balance
  rw [moved] at gone some_moved
  cases styles : p.chosen .style with
  | cons a rest =>
    left
    simp only [styles, List.length_append, List.length_cons, reduceCtorEq, if_false] at gone balance
    cases scripts : p.chosen .script with
    | nil =>
      simp only [scripts, if_true] at balance
      omega
    | cons b rest =>
      simp only [scripts, List.length_cons, reduceCtorEq, if_false] at gone balance
      omega
  | nil =>
    cases scripts : p.chosen .script with
    | nil => simp [styles, scripts] at some_moved
    | cons b rest =>
      simp only [styles, scripts, List.length_append, List.length_cons, List.length_nil,
        reduceCtorEq, if_true, if_false] at gone balance
      cases rest with
      | nil =>
        simp only [List.length_nil] at gone
        by_cases same : p.assets.markup.count (.scalar '<') = p.page.count (.scalar '<')
        · exact .inr ⟨same, rfl, ⟨b, rfl⟩, by omega⟩
        · exact .inl (by omega)
      | cons c rest =>
        simp only [List.length_cons] at gone
        exact .inl (by omega)

end Plain

end Plan

end Unbundle
