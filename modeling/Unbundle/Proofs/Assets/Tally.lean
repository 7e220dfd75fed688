import Unbundle.Proofs.Assets.Staying
import Unbundle.Proofs.Assets.Traced

namespace Unbundle

namespace Plan

variable {p : Plan} {kind : Kind} {b : Block}

def Removes (p : Plan) (b : Block) : Prop :=
  ∀ i < b.stop, b.start ≤ i → ∃ e ∈ p.edits, e.Covers i

instance (p : Plan) (b : Block) : Decidable (p.Removes b) :=
  inferInstanceAs (Decidable (∀ i < b.stop, b.start ≤ i → _))

/-- The positions of the page whose symbols stand in the new page. -/
def survivors (p : Plan) : List Nat := p.traced.filterMap Prod.fst

def Retains (p : Plan) (b : Block) : Prop := ∀ i < b.stop, b.start ≤ i → i ∈ p.survivors

instance (p : Plan) (b : Block) : Decidable (p.Retains b) :=
  inferInstanceAs (Decidable (∀ i < b.stop, b.start ≤ i → _))

/-- How many blocks of a kind can be moved, and how many of them are. The others are kept whole. -/
structure Tallies (p : Plan) (kind : Kind) (found moved : Nat) : Prop where
  all_found : (p.marks.blocks.filter fun b => b.kind = kind ∧ b.isExtractable).length = found
  all_moved : (p.marks.blocks.filter fun b => b.kind = kind ∧ p.Removes b).length = moved
  all_left : (p.marks.blocks.filter fun b =>
    b.kind = kind ∧ b.isExtractable ∧ p.Retains b).length = found - moved
  moved_le : moved ≤ found

theorem mem_tracedAt {i x : Nat} {s : Sym} :
    (some x, s) ∈ p.tracedAt i ↔ x = i ∧ ¬ p.Deletes i ∧ p.page[i]? = some s := by
  rw [tracedAt, List.mem_append]
  by_cases deleted : p.Deletes i
  · simp [deleted]
  · simp [deleted, and_comm, eq_comm]

theorem mem_survivors {i : Nat} (inside : i < p.page.length) :
    i ∈ p.survivors ↔ ¬ p.Deletes i := by
  constructor
  · intro survives
    obtain ⟨⟨_, s⟩, listed, rfl⟩ := List.mem_filterMap.mp survives
    obtain ⟨j, -, here⟩ := List.mem_flatMap.mp listed
    obtain ⟨rfl, spared, -⟩ := mem_tracedAt.mp here
    exact spared
  · intro spared
    have here : (some i, p.page[i]) ∈ p.tracedAt i :=
      mem_tracedAt.mpr ⟨rfl, spared, List.getElem?_eq_getElem inside⟩
    have listed : (some i, p.page[i]) ∈ p.traced :=
      List.mem_flatMap.mpr ⟨i, List.mem_range.mpr (by omega), here⟩
    exact List.mem_filterMap.mpr ⟨_, listed, rfl⟩

section Formed

variable (formed : p.marks.WellFormed p.page) (scanned : b ∈ p.marks.blocks)

include formed scanned

theorem removes_iff : p.Removes b ↔ b ∈ p.moved := by
  have nonempty := (formed.blocks b scanned).start_lt_stop
  constructor
  · intro removed
    by_contra stays
    have deleted := (p.deletes_iff b.start).mpr (removed b.start nonempty (Nat.le_refl _))
    exact staying_spared formed ⟨scanned, stays⟩ b.start (Nat.le_refl _) nonempty deleted
  · intro moved i before behind
    obtain ⟨early, -, late, -⟩ := span_bounds formed moved
    exact (p.deletes_iff i).mp ⟨b, moved, by omega, by omega⟩

theorem retains_iff : p.Retains b ↔ b ∉ p.moved := by
  have block := formed.blocks b scanned
  have nonempty := block.start_lt_stop
  have inside := block.stop_le
  constructor
  · intro retained moved
    have spared := (mem_survivors (by omega)).mp (retained b.start nonempty (Nat.le_refl _))
    exact spared ((p.deletes_iff b.start).mpr
      ((removes_iff formed scanned).mpr moved b.start nonempty (Nat.le_refl _)))
  · intro stays i before behind
    exact (mem_survivors (by omega)).mpr (staying_spared formed ⟨scanned, stays⟩ i behind before)

end Formed

theorem mem_chosen_iff : b ∈ p.chosen kind ↔ b.kind = kind ∧ b ∈ p.moved := by
  constructor
  · intro chosen
    refine ⟨(suited_of_chosen chosen).1, List.mem_append.mpr ?_⟩
    cases kind with
    | style => exact .inl chosen
    | script => exact .inr chosen
  · rintro ⟨rfl, moved⟩
    rcases List.mem_append.mp moved with style | script
    · rwa [(suited_of_chosen style).1]
    · rwa [(suited_of_chosen script).1]

theorem blocks_nodup (formed : p.marks.WellFormed p.page) : p.marks.blocks.Nodup := by
  refine formed.ordered.imp_of_mem ?_
  rintro a _ member - ordered rfl
  have nonempty := (formed.blocks a member).start_lt_stop
  omega

theorem removed_eq (formed : p.marks.WellFormed p.page) (kind : Kind) :
    (p.marks.blocks.filter fun b => b.kind = kind ∧ p.Removes b) =
      (p.found kind).filter fun b => p.Removes b := by
  rw [found, Marks.extractable, List.filter_filter]
  refine List.filter_congr fun b scanned => ?_
  by_cases removed : p.Removes b
  · have suited : b.kind = kind → b.isExtractable := fun same =>
      (suited_of_chosen (mem_chosen_iff.mpr ⟨same, (removes_iff formed scanned).mp removed⟩)).2
    by_cases same : b.kind = kind <;> simp [removed, same, suited]
  · simp [removed]

theorem removed_length (formed : p.marks.WellFormed p.page) (kind : Kind) :
    ((p.found kind).filter fun b => p.Removes b).length = (p.chosen kind).length := by
  have nodup := blocks_nodup formed
  rw [← removed_eq formed]
  refine List.Perm.length_eq ((List.perm_ext_iff_of_nodup (nodup.filter _)
    (nodup.sublist (p.chosen_sublist kind))).mpr fun b => ?_)
  rw [List.mem_filter, decide_eq_true_eq]
  constructor
  · rintro ⟨scanned, same, removed⟩
    exact mem_chosen_iff.mpr ⟨same, (removes_iff formed scanned).mp removed⟩
  · intro chosen
    have scanned := (p.chosen_sublist kind).subset chosen
    obtain ⟨same, moved⟩ := mem_chosen_iff.mp chosen
    exact ⟨scanned, same, (removes_iff formed scanned).mpr moved⟩

theorem retained_length (formed : p.marks.WellFormed p.page) (kind : Kind) :
    (p.marks.blocks.filter fun b => b.kind = kind ∧ b.isExtractable ∧ p.Retains b).length =
      (p.found kind).length - (p.chosen kind).length := by
  have parts := List.length_eq_length_filter_add (l := p.found kind) fun b => decide (p.Removes b)
  have same : (p.marks.blocks.filter fun b => b.kind = kind ∧ b.isExtractable ∧ p.Retains b) =
      (p.found kind).filter fun b => !decide (p.Removes b) := by
    rw [found, Marks.extractable, List.filter_filter]
    refine List.filter_congr fun b scanned => ?_
    have either : p.Retains b ↔ ¬ p.Removes b := by
      rw [retains_iff formed scanned, removes_iff formed scanned]
    simp only [either, Bool.decide_and, decide_not, Bool.decide_eq_true]
    rw [← Bool.and_assoc, Bool.and_comm]
  rw [removed_length formed] at parts
  rw [same]
  omega

theorem tallies (formed : p.marks.WellFormed p.page) (kind : Kind) :
    p.Tallies kind (p.found kind).length (p.chosen kind).length where
  all_found := by simp [found, Marks.extractable]
  all_moved := by rw [removed_eq formed, removed_length formed]
  all_left := retained_length formed kind
  moved_le := by
    unfold chosen
    split
    · exact Nat.le_refl _
    · exact (List.take_sublist 1 _).length_le

theorem chosen_all (all : p.all = true) (kind : Kind) : p.chosen kind = p.found kind := by
  rw [chosen, if_pos all]

end Plan

end Unbundle
