import Mathlib.Algebra.BigOperators.Group.List.Basic
import Unbundle.Proofs.Assets.Rewriting
import Unbundle.Proofs.Text.Slice

namespace Unbundle

namespace Plan

variable {p : Plan}

/-- What is written for the positions from `i` up to and without `j`. -/
def stretch (p : Plan) (i j : Nat) : Text := (List.range' i (j - i)).flatMap p.written

def inserts (p : Plan) (i : Nat) : Text := p.inserted .style i ++ p.inserted .script i

theorem written_eq (p : Plan) (i : Nat) :
    p.written i = p.inserts i ++ if p.Deletes i then [] else p.page[i]?.toList := rfl

theorem inserted_of_ne {kind : Kind} {i : Nat} (elsewhere : p.position kind ≠ i) :
    p.inserted kind i = [] :=
  if_neg fun here => elsewhere here.2

theorem inserted_at {kind : Kind} (chosen : p.chosen kind ≠ []) :
    ∃ before behind : Text, p.inserted kind (p.position kind) = before ++ kind.reference ++ behind ∧
      before.isBlank ∧ behind.isBlank := by
  rw [inserted, if_pos ⟨chosen, rfl⟩]
  exact Markup.indented_around p.page (p.position kind) kind.reference

theorem inserted_cases (p : Plan) (kind : Kind) (i : Nat) : p.inserted kind i = [] ∨
    ∃ before behind : Text, p.inserted kind i = before ++ kind.reference ++ behind ∧
      before.isBlank ∧ behind.isBlank := by
  by_cases here : p.chosen kind ≠ [] ∧ p.position kind = i
  · exact .inr (here.2 ▸ inserted_at here.1)
  · exact .inl (if_neg here)

theorem stretch_self (p : Plan) (i : Nat) : p.stretch i i = [] := by
  rw [stretch, Nat.sub_self]
  rfl

theorem stretch_append (p : Plan) {i j k : Nat} (first : i ≤ j) (second : j ≤ k) :
    p.stretch i j ++ p.stretch j k = p.stretch i k := by
  rw [stretch, stretch, stretch, ← List.flatMap_append, range'_parts first second]

theorem stretch_succ (p : Plan) (i : Nat) : p.stretch i (i + 1) = p.written i := by
  rw [stretch, Nat.add_sub_cancel_left]
  exact List.flatMap_singleton _ _

theorem stretch_cons (p : Plan) {i j : Nat} (ahead : i < j) :
    p.stretch i j = p.written i ++ p.stretch (i + 1) j := by
  rw [← stretch_succ, p.stretch_append (Nat.le_succ i) ahead]

theorem stretch_copy {i j : Nat} (range : i ≤ j)
    (spared : ∀ x, i ≤ x → x < j → ¬ p.Deletes x)
    (silent : ∀ x, i ≤ x → x < j → p.inserts x = []) : p.stretch i j = p.page.slice i j := by
  have sliced := Text.slice_eq_flatMap p.page i (Nat.le_refl i) (j - i)
  rw [Nat.add_sub_of_le range] at sliced
  rw [sliced, stretch]
  apply List.flatMap_congr
  intro x member
  have bounds := List.mem_range'_1.mp member
  rw [written_eq, silent x bounds.1 (by omega), if_neg (spared x bounds.1 (by omega)),
    if_pos bounds.1, List.nil_append]

theorem stretch_put {i j : Nat} (ahead : i < j)
    (spared : ∀ x, i ≤ x → x < j → ¬ p.Deletes x)
    (silent : ∀ x, i < x → x < j → p.inserts x = []) :
    p.stretch i j = p.inserts i ++ p.page.slice i j := by
  have rest : p.stretch (i + 1) j = p.page.slice (i + 1) j :=
    stretch_copy ahead (fun x behind before => spared x (by omega) before) silent
  rw [p.stretch_cons ahead, written_eq, if_neg (spared i (Nat.le_refl i) ahead), rest,
    p.page.slice_cons ahead, List.append_assoc]

theorem stretch_gone {i j : Nat} (ahead : i < j) (gone : ∀ x, i ≤ x → x < j → p.Deletes x)
    (silent : ∀ x, i < x → x < j → p.inserts x = []) : p.stretch i j = p.inserts i := by
  have rest : p.stretch (i + 1) j = [] := by
    apply List.flatMap_eq_nil_iff.mpr
    intro x member
    have bounds := List.mem_range'_1.mp member
    rw [written_eq, silent x bounds.1 (by omega), if_pos (gone x (by omega) (by omega))]
    rfl
  rw [p.stretch_cons ahead, written_eq, if_pos (gone i (Nat.le_refl i) ahead), rest,
    List.append_nil, List.append_nil]

theorem stretch_from {i j : Nat} {s : Sym} (ahead : i < j) (spared : ¬ p.Deletes i)
    (stands : p.page[i]? = some s) :
    p.stretch i j = p.inserts i ++ s :: p.stretch (i + 1) j := by
  rw [p.stretch_cons ahead, written_eq, if_neg spared, stands, List.append_assoc]
  rfl

theorem length_le_stretch {i j : Nat} (inside : j ≤ p.page.length)
    (spared : ∀ x, i ≤ x → x < j → ¬ p.Deletes x) : j - i ≤ (p.stretch i j).length := by
  rw [stretch, List.length_flatMap]
  have each : ∀ x ∈ List.range' i (j - i), 1 ≤ (p.written x).length := by
    intro x member
    have bounds := List.mem_range'_1.mp member
    have short : x < p.page.length := by omega
    rw [written_eq, if_neg (spared x bounds.1 (by omega)), List.getElem?_eq_getElem short,
      List.length_append]
    exact Nat.le_add_left 1 _
  have total := List.length_le_sum_of_one_le _ (List.forall_mem_map.mpr each)
  rwa [List.length_map, List.length_range'] at total

/-- A stretch that begins and ends with a symbol, and holds no moved block, is left alone also by
    the blanks that go with blocks. -/
theorem spared_between (formed : p.marks.WellFormed p.page) {i j : Nat} {first last : Sym}
    (opening : p.page[i]? = some first) (opened : first.isBlank = false)
    (closing : p.page[j - 1]? = some last) (closed : last.isBlank = false)
    (apart : ∀ b ∈ p.moved, b.stop ≤ i ∨ j ≤ b.start) :
    ∀ x, i ≤ x → x < j → ¬ p.Deletes x := by
  intro x behind before deleted
  obtain ⟨b, member, reached, ends⟩ := deleted
  have widens := span_widens formed member
  rcases apart b member with left | right
  · have blank := widens.trail i first left (by omega) opening
    rw [opened] at blank
    cases blank
  · have blank := (widens.lead (j - 1) last (by omega) (by omega) closing).1
    rw [closed] at blank
    cases blank

theorem assets_stretch (formed : p.marks.WellFormed p.page) :
    p.assets.markup = p.stretch 0 (p.page.length + 1) := by
  rw [assets_reads formed, stretch, List.range_eq_range', Nat.sub_zero]

end Plan

theorem Assets.ofText_stretch (page : Text) (all : Bool) :
    (Assets.ofText page all).markup = (Plan.make page all).stretch 0 (page.length + 1) :=
  Plan.assets_stretch (Markup.scan_marks_wellFormed page)

end Unbundle
