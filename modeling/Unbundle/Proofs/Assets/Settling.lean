import Mathlib.Logic.Function.Iterate
import Unbundle.Proofs.Assets.ScriptMove
import Unbundle.Proofs.Assets.Staying

namespace Unbundle

namespace Plan

variable {p : Plan} {b : Block}

namespace TakesScript

theorem silent (takes : p.TakesScript b) {x : Nat} (elsewhere : p.position .script ≠ x) :
    p.inserts x = [] := by
  rw [inserts, inserted_of_ne elsewhere, inserted, if_neg fun put => put.1 takes.style]
  rfl

theorem reference_put (takes : p.TakesScript b) :
    0 < Text.references (p.inserts (p.position .script)) := by
  have chosen : p.chosen .script ≠ [] := by simp [takes.script]
  obtain ⟨before, behind, parts, -, -⟩ := inserted_at chosen
  have put : p.inserts (p.position .script) = before ++ Kind.script.reference ++ behind := by
    rw [inserts, inserted, if_neg fun put => put.1 takes.style, parts]
    rfl
  have itself : 0 < Text.copies Kind.script.reference Kind.script.reference :=
    Text.copies_pos (List.prefix_refl _) (by decide)
  have front := Text.copies_append_le Kind.script.reference before
    Kind.script.reference
  have whole := Text.copies_append_le Kind.script.reference
    (before ++ Kind.script.reference) behind
  rw [put]
  unfold Text.references
  omega

theorem position_outside (takes : p.TakesScript b) :
    p.position .script ≤ (p.span b).1 ∨ (p.span b).2 ≤ p.position .script := by
  have widens := takes.widens
  have outside := script_position_outside (formed_of_scanned takes.scanned)
    (mem_blocks_of_moved takes.mem_moved)
  rcases script_position_cases takes.scanned takes.plain with last | ⟨opened, letter⟩
  · exact .inr (last ▸ widens.inside)
  · by_contra within
    rcases outside with front | behind
    · have blank := (widens.lead _ _ (by omega) front opened).1
      exact absurd blank (by decide)
    · have blank := widens.trail _ _ behind (by omega) opened
      exact absurd blank (by decide)

theorem references_kept (takes : p.TakesScript b) {i j : Nat} (range : i ≤ j)
    (beside : j ≤ (p.span b).1 ∨ (p.span b).2 ≤ i)
    (away : ∀ x, i ≤ x → x < j → p.position .script ≠ x) :
    Text.references (p.stretch i j) = Text.references (p.page.slice i j) := by
  rw [stretch_copy range]
  · intro x behind before gone
    rw [takes.deletes_iff] at gone
    omega
  · intro x behind before
    exact takes.silent (away x behind before)

theorem references_more (takes : p.TakesScript b) {j : Nat} (ahead : p.position .script < j)
    (beside : j ≤ (p.span b).1 ∨ (p.span b).2 ≤ p.position .script) :
    Text.references (p.page.slice (p.position .script) j) <
      Text.references (p.stretch (p.position .script) j) := by
  have spared : ∀ x, p.position .script ≤ x → x < j → ¬ p.Deletes x := by
    intro x behind before gone
    rw [takes.deletes_iff] at gone
    omega
  rw [stretch_put ahead spared fun x behind before => takes.silent (by omega)]
  have parts := Text.copies_append_le Kind.script.reference
    (p.inserts (p.position .script)) (p.page.slice (p.position .script) j)
  have put := takes.reference_put
  unfold Text.references at put ⊢
  omega

theorem references_gone (takes : p.TakesScript b) :
    Text.references (p.page.slice (p.span b).1 (p.span b).2) = 0 := by
  have length := p.page.length_slice (i := (p.span b).1) takes.widens.inside
  apply Text.copies_eq_zero
  intro x short begins
  rw [Text.prefix_drop_slice] at begins
  exact takes.not_in_span (by omega) (by omega) begins.1

theorem references_page (takes : p.TakesScript b) :
    Text.references p.page = Text.references (p.page.slice 0 (p.span b).1) +
      Text.references (p.page.slice (p.span b).2 (p.page.length + 1)) := by
  have widens := takes.widens
  have length := takes.formed.start_lt_stop
  have first := widens.start_le
  have last := widens.le_stop
  have inside := widens.inside
  have whole : p.page.slice 0 (p.page.length + 1) = p.page := p.page.slice_eq_drop (by omega)
  have start := Text.copies_slice Kind.script.reference (Nat.zero_le (p.span b).1)
    (show (p.span b).1 ≤ p.page.length + 1 by omega) (by omega)
    fun a front beyond => takes.not_across_start front beyond
  have stop := Text.copies_slice Kind.script.reference
    (show (p.span b).1 ≤ (p.span b).2 by omega) (show (p.span b).2 ≤ p.page.length + 1 by omega)
    inside fun a front beyond => takes.not_across_stop front beyond
  have gone := takes.references_gone
  rw [whole] at start
  unfold Text.references at gone ⊢
  omega

theorem references_parts (p : Plan) {i j k : Nat} (first : i ≤ j) (second : j ≤ k) :
    Text.references (p.stretch i j) + Text.references (p.stretch j k) ≤
      Text.references (p.stretch i k) := by
  rw [← p.stretch_append first second]
  exact Text.copies_append_le _ _ _

theorem references_ahead (takes : p.TakesScript b) (front : p.position .script ≤ (p.span b).1) :
    Text.references (p.page.slice 0 (p.span b).1) <
      Text.references (p.stretch 0 (p.span b).1) +
        Text.references (p.stretch (p.span b).1 (p.span b).2) := by
  have first := takes.widens.start_le
  have length := takes.formed.start_lt_stop
  have last := takes.widens.le_stop
  have cut := Text.copies_slice Kind.script.reference (Nat.zero_le (p.position .script)) front
    (position_le (formed_of_scanned takes.scanned) .script)
    fun a front beyond => takes.not_across_position front beyond
  have before := takes.references_kept (Nat.zero_le (p.position .script)) (.inl front)
    (fun x behind before => by omega)
  have parts := references_parts p (Nat.zero_le (p.position .script)) front
  rcases Nat.eq_or_lt_of_le front with same | ahead
  · -- The reference takes the place of the script.
    have gone : p.stretch (p.span b).1 (p.span b).2 = p.inserts (p.span b).1 := by
      apply stretch_gone (by omega)
      · exact fun x behind before => (takes.deletes_iff x).mpr ⟨behind, before⟩
      · exact fun x behind before => takes.silent (by omega)
    have more := takes.reference_put
    rw [same] at before more
    rw [gone]
    omega
  · have more := takes.references_more ahead (.inl (Nat.le_refl _))
    unfold Text.references at *
    omega

theorem references_behind (takes : p.TakesScript b) (behind : (p.span b).2 ≤ p.position .script) :
    Text.references (p.page.slice (p.span b).2 (p.page.length + 1)) <
      Text.references (p.stretch (p.span b).2 (p.page.length + 1)) := by
  have bound := position_le (formed_of_scanned takes.scanned) .script
  have more := takes.references_more (j := p.page.length + 1) (by omega) (.inr behind)
  have cut := Text.copies_slice Kind.script.reference behind
    (show p.position .script ≤ p.page.length + 1 by omega) bound
    fun a front beyond => takes.not_across_position front beyond
  have between := takes.references_kept behind (.inr (Nat.le_refl _))
    (fun x behind before => by omega)
  have parts := references_parts p behind (show p.position .script ≤ p.page.length + 1 by omega)
  unfold Text.references at *
  omega

/-- The page gains a reference: one is put in, and none that stood in it goes. -/
theorem references_grow (takes : p.TakesScript b) :
    Text.references p.page < Text.references p.assets.markup := by
  have first := takes.widens.start_le
  have length := takes.formed.start_lt_stop
  have last := takes.widens.le_stop
  have inside := takes.widens.inside
  have whole := references_parts p (Nat.zero_le (p.span b).1)
    (show (p.span b).1 ≤ p.page.length + 1 by omega)
  have rest := references_parts p (show (p.span b).1 ≤ (p.span b).2 by omega)
    (show (p.span b).2 ≤ p.page.length + 1 by omega)
  rw [assets_stretch (formed_of_scanned takes.scanned), takes.references_page]
  rcases takes.position_outside with front | behind
  · have ahead := takes.references_ahead front
    have after := takes.references_kept (i := (p.span b).2) (j := p.page.length + 1) (by omega)
      (.inr (Nat.le_refl _)) (fun x behind before => by omega)
    omega
  · have before := takes.references_kept (Nat.zero_le (p.span b).1) (.inl (Nat.le_refl _))
      (fun x behind before => by omega)
    have after := takes.references_behind behind
    omega

end TakesScript

theorem text_none_iff (p : Plan) (kind : Kind) : p.text? kind = none ↔ p.chosen kind = [] := by
  unfold text?
  cases p.chosen kind <;> simp

theorem markup_eq_page (formed : p.marks.WellFormed p.page) (idle : p.moved = []) :
    p.assets.markup = p.page := by
  rw [moved, List.append_eq_nil_iff] at idle
  rw [assets_stretch formed, stretch_copy (Nat.zero_le _)]
  · exact p.page.slice_eq_drop (Nat.le_succ _)
  · intro x _ _ gone
    obtain ⟨b, member, -⟩ := gone
    simp [moved, idle] at member
  · intro x _ _
    simp [inserts, inserted, idle]

theorem markup_plain (formed : p.marks.WellFormed p.page) (plain : Sym.dottedI ∉ p.page) :
    Sym.dottedI ∉ p.assets.markup := by
  have references : ∀ kind i, Sym.dottedI ∉ p.inserted kind i := by
    intro kind i member
    rcases p.inserted_cases kind i with none | ⟨before, behind, parts, front, back⟩
    · rw [none] at member
      cases member
    · rw [parts, List.mem_append, List.mem_append] at member
      rcases member with (early | tag) | late
      · exact Text.not_mem_of_isBlank front (by decide) early
      · revert tag
        cases kind <;> decide
      · exact Text.not_mem_of_isBlank back (by decide) late
  rw [assets_reads formed]
  intro member
  obtain ⟨i, -, here⟩ := List.mem_flatMap.mp member
  rw [written, List.mem_append, List.mem_append] at here
  rcases here with (style | script) | symbol
  · exact references .style i style
  · exact references .script i script
  · split at symbol
    · cases symbol
    · exact plain (List.mem_of_getElem? (Option.mem_toList.mp symbol))

end Plan

/-- What a round leaves less of: the `<`, and as long as they are as many, those that begin no
    script reference. -/
def Text.unsettled (page : Text) : Nat :=
  page.count (.scalar '<') * page.count (.scalar '<') +
    (page.count (.scalar '<') - page.references)

namespace Assets

def IsEmpty (a : Assets) : Prop := a.styleText = none ∧ a.scriptText = none

/-- The page that is left when the blocks have been moved out of one. -/
def round (all : Bool) (page : Text) : Text := (ofText page all).markup

theorem isEmpty_iff (page : Text) (all : Bool) :
    (ofText page all).IsEmpty ↔ (Plan.make page all).moved = [] := by
  rw [Plan.moved, List.append_eq_nil_iff, ← Plan.text_none_iff, ← Plan.text_none_iff]
  rfl

theorem round_of_isEmpty {page : Text} {all : Bool} (empty : (ofText page all).IsEmpty) :
    round all page = page :=
  Plan.markup_eq_page (Markup.scan_marks_wellFormed page) ((isEmpty_iff page all).mp empty)

theorem round_plain {page : Text} (plain : Sym.dottedI ∉ page) (all : Bool) :
    Sym.dottedI ∉ round all page :=
  Plan.markup_plain (p := .make page all) (Markup.scan_marks_wellFormed page) plain

theorem round_falls {page : Text} {all : Bool} (plain : Sym.dottedI ∉ page)
    (moves : ¬ (ofText page all).IsEmpty) : (round all page).unsettled < page.unsettled := by
  rw [isEmpty_iff] at moves
  unfold Text.unsettled
  have bound : (round all page).references ≤ (round all page).count (.scalar '<') :=
    Text.copies_le_count rfl _
  rcases Plan.count_falls (p := .make page all) rfl plain moves with
    fewer | ⟨same, style, ⟨b, script⟩, few⟩
  · have below : (round all page).count (.scalar '<') + 1 ≤ page.count (.scalar '<') := fewer
    -- The squares differ by more than the number of `<` that begin no reference can grow.
    have squares := Nat.mul_le_mul below below
    rw [Nat.add_mul, Nat.mul_add] at squares
    omega
  · have grows : page.references < (round all page).references :=
      Plan.TakesScript.references_grow ⟨rfl, plain, style, script, few⟩
    have same : (round all page).count (.scalar '<') = page.count (.scalar '<') := same
    rw [same] at bound ⊢
    omega

theorem rounds_reach (all : Bool) (page : Text) (plain : Sym.dottedI ∉ page) :
    ∃ n ≤ page.unsettled, (ofText ((round all)^[n] page) all).IsEmpty := by
  by_cases empty : (ofText page all).IsEmpty
  · exact ⟨0, Nat.zero_le _, empty⟩
  · have falls := round_falls plain empty
    obtain ⟨n, soon, settled⟩ := rounds_reach all (round all page) (round_plain plain all)
    exact ⟨n + 1, by omega, settled⟩
termination_by page.unsettled

/-- Taking a page apart over and over comes to an end: to a page that nothing is moved out of any
    more and that every further round leaves as it is. -/
theorem ofText_settles (page : Text) (all : Bool) (plain : Sym.dottedI ∉ page) :
    ∃ n ≤ page.unsettled, ∃ last, (round all)^[n] page = last ∧ (ofText last all).IsEmpty ∧
      ∀ m ≥ n, (round all)^[m] page = last := by
  obtain ⟨n, soon, settled⟩ := rounds_reach all page plain
  refine ⟨n, soon, _, rfl, settled, ?_⟩
  intro m later
  obtain ⟨k, rfl⟩ := Nat.exists_eq_add_of_le' later
  rw [Function.iterate_add_apply]
  exact Function.iterate_fixed (round_of_isEmpty settled) k

/-- A script and behind it one without an end, which the reference to the first one closes. -/
def nestedScript : Text := "<script>a</script><script>b"

theorem ofText_settles_nestedScript : Sym.dottedI ∉ nestedScript ∧
    ∃ n ≤ nestedScript.unsettled, ∃ last, (round false)^[n] nestedScript = last ∧
      (ofText last false).IsEmpty ∧ ∀ m ≥ n, (round false)^[m] nestedScript = last :=
  ⟨by decide, ofText_settles nestedScript false (by decide)⟩

end Assets

end Unbundle
