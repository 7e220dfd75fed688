import Unbundle.Proofs.Assets.Counting
import Unbundle.Proofs.Markup.Origin
import Unbundle.Proofs.Text.Slice

namespace Unbundle

def Text.references (page : Text) : Nat := Text.copies Kind.script.reference page

namespace Kind

theorem reference_length : Kind.script.reference.length = 35 := by decide

theorem reference_bracket : ∀ x < 35, Kind.script.reference[x]? = some (.scalar '<') →
    x = 0 ∨ x = 26 := by
  decide

theorem reference_blank : ∀ x < 35, Kind.script.reference[x]?.any Sym.isBlank → x = 7 := by
  decide

theorem reference_around_blank {page : Text} {a c : Nat}
    (begins : Kind.script.reference <+: page.drop a) (behind : a ≤ c) (before : c < a + 35)
    (blank : page[c]?.any Sym.isBlank) :
    page[c - 1]? = some (.scalar 't') ∧ page[c + 1]? = some (.scalar 's') := by
  rw [Text.getElem?_eq_of_begins begins behind before] at blank
  have place := reference_blank (c - a) (by omega) blank
  rw [show c - 1 = a + 6 by omega, show c + 1 = a + 8 by omega]
  exact ⟨Text.getElem?_of_begins begins (by decide), Text.getElem?_of_begins begins (by decide)⟩

theorem reference_close : ∀ x < 35, Kind.script.reference[x]? = some (.scalar '>') →
    x = 25 ∨ x = 34 := by
  decide

end Kind

namespace Plan

variable {p : Plan} {b : Block}

theorem script_position_cases (scanned : p.marks = Markup.scan p.page)
    (plain : Sym.dottedI ∉ p.page) :
    p.position .script = p.page.length ∨
      p.page[p.position .script]? = some (.scalar '<') ∧
        (p.page[p.position .script + 2]?.map Sym.asciiLower = some (.scalar 'b') ∨
          p.page[p.position .script + 2]?.map Sym.asciiLower = some (.scalar 'h')) := by
  have formed := formed_of_scanned scanned
  cases body : p.marks.bodyClose? with
  | some i =>
    right
    have here : p.position .script = i := by simp [position, body]
    have closing : Markup.closes "body" (p.page.lower.drop i) :=
      Markup.bodyClose_closes (scanned ▸ body)
    rw [here]
    exact ⟨(formed.tags i (.inr (.inr (.inl body)))).1,
      .inl (Markup.closes_head plain (by decide) closing rfl)⟩
  | none =>
    cases html : p.marks.htmlClose? with
    | some i =>
      right
      have here : p.position .script = i := by simp [position, body, html]
      have closing : Markup.closes "html" (p.page.lower.drop i) :=
        Markup.htmlClose_closes (scanned ▸ html)
      rw [here]
      exact ⟨(formed.tags i (.inr (.inr (.inr html)))).1,
        .inr (Markup.closes_head plain (by decide) closing rfl)⟩
    | none => exact .inl (by simp [position, body, html])

/-- A single script is taken out of the page, and no more `<` with it than begin its two tags. -/
structure TakesScript (p : Plan) (b : Block) : Prop where
  scanned : p.marks = Markup.scan p.page
  plain : Sym.dottedI ∉ p.page
  style : p.chosen .style = []
  script : p.chosen .script = [b]
  few : p.goneTags.card = 2

namespace TakesScript

theorem moved (takes : p.TakesScript b) : p.moved = [b] := by
  rw [Plan.moved, takes.style, takes.script]
  rfl

theorem mem_moved (takes : p.TakesScript b) : b ∈ p.moved := by
  rw [takes.moved]
  exact List.mem_singleton_self b

theorem formed (takes : p.TakesScript b) : b.WellFormed p.page :=
  (formed_of_scanned takes.scanned).blocks b (mem_blocks_of_moved takes.mem_moved)

theorem widens (takes : p.TakesScript b) : Markup.Widens p.page b.start b.stop (p.span b) :=
  span_widens (formed_of_scanned takes.scanned) takes.mem_moved

theorem element (takes : p.TakesScript b) :
    Markup.IsElement p.page b.kind b.start b.contentStart b.contentEnd b.stop :=
  element_of_moved takes.scanned takes.plain takes.mem_moved

theorem deletes_iff (takes : p.TakesScript b) (x : Nat) :
    p.Deletes x ↔ (p.span b).1 ≤ x ∧ x < (p.span b).2 := by
  simp [Deletes, takes.moved]

theorem bracket (takes : p.TakesScript b) {x : Nat} (behind : b.start ≤ x) (before : x < b.stop)
    (stands : p.page[x]? = some (.scalar '<')) : x = b.start ∨ x = b.contentEnd := by
  have widens := takes.widens
  have first := widens.start_le
  have last := widens.le_stop
  refine goneTags_eq takes.scanned takes.plain takes.moved takes.few x ?_ stands
  exact (takes.deletes_iff x).mpr ⟨by omega, by omega⟩

theorem symbol_behind_start (takes : p.TakesScript b) :
    p.page[b.start + 1]?.map Sym.asciiLower = some (.scalar 's') :=
  takes.element.opens.2.head

theorem symbol_behind_content (takes : p.TakesScript b) :
    p.page[b.contentEnd + 1]? = some (.scalar '/') :=
  (closing_of_moved takes.scanned takes.plain takes.mem_moved).2

theorem not_across_start (takes : p.TakesScript b) {a : Nat} (front : a < (p.span b).1)
    (beyond : (p.span b).1 < a + 35) : ¬ Kind.script.reference <+: p.page.drop a := by
  intro begins
  have same : ∀ c, a ≤ c → c < a + 35 → p.page[c]? = Kind.script.reference[c - a]? :=
    fun c behind before => Text.getElem?_eq_of_begins begins behind before
  have widens := takes.widens
  have opened := takes.formed.opened
  rcases Nat.eq_or_lt_of_le widens.start_le with narrow | wide
  · -- The block begins with a `<` and an `s`; the second `<` of a reference has a `/` behind it.
    have here := same (p.span b).1 (Nat.le_of_lt front) beyond
    rw [narrow, opened] at here
    have place := Kind.reference_bracket _ (by omega) here.symm
    have next := takes.symbol_behind_start
    rw [same (b.start + 1) (by omega) (by omega), show b.start + 1 - a = 27 by omega] at next
    exact absurd next (by decide)
  · have short := Markup.position_lt opened
    have blank : p.page[(p.span b).1]?.any Sym.isBlank := by
      rw [List.getElem?_eq_getElem (by omega)]
      exact (widens.lead _ _ (Nat.le_refl _) wide (List.getElem?_eq_getElem (by omega))).1
    have next := (Kind.reference_around_blank begins (Nat.le_of_lt front) beyond blank).2
    rcases Nat.eq_or_lt_of_le (Nat.succ_le_of_lt wide) with last | more
    · rw [show (p.span b).1 + 1 = b.start from last, opened] at next
      exact absurd next (by decide)
    · have letter := (widens.lead _ _ (Nat.le_succ _) more next).1
      exact absurd letter (by decide)

theorem not_across_stop (takes : p.TakesScript b) {a : Nat} (front : a < (p.span b).2)
    (beyond : (p.span b).2 < a + 35) : ¬ Kind.script.reference <+: p.page.drop a := by
  intro begins
  have same : ∀ c, a ≤ c → c < a + 35 → p.page[c]? = Kind.script.reference[c - a]? :=
    fun c behind before => Text.getElem?_eq_of_begins begins behind before
  have widens := takes.widens
  have formed := takes.formed
  have closed := formed.closed
  have length := formed.start_lt_stop
  have opening := formed.start_lt
  have content := formed.content_le
  have closing := formed.content_lt
  rcases Nat.eq_or_lt_of_le widens.le_stop with narrow | wide
  · -- The block ends with the first `>` of the reference. The one `<` in front of that would have
    -- to begin both the block and its closing tag.
    have here := same ((p.span b).2 - 1) (by omega) (by omega)
    rw [← narrow, closed] at here
    have place := Kind.reference_close _ (by omega) here.symm
    have begun := same a (Nat.le_refl a) (by omega)
    rw [Nat.sub_self] at begun
    by_cases behind : b.start ≤ a
    · rcases takes.bracket behind (by omega) begun with first | last
      · have inner := same b.contentEnd (by omega) (by omega)
        rw [(closing_of_moved takes.scanned takes.plain takes.mem_moved).1] at inner
        have place := Kind.reference_bracket _ (by omega) inner.symm
        omega
      · have next := takes.symbol_behind_content
        rw [← last, same (a + 1) (by omega) (by omega), Nat.add_sub_cancel_left] at next
        exact absurd next (by decide)
    · have inner := same b.start (by omega) (by omega)
      rw [formed.opened] at inner
      have place := Kind.reference_bracket _ (by omega) inner.symm
      omega
  · -- The deleted span ends with blanks; that of the reference has a letter in front.
    have short := widens.inside
    have blank : p.page[(p.span b).2 - 1]?.any Sym.isBlank := by
      rw [List.getElem?_eq_getElem (by omega)]
      exact widens.trail _ _ (by omega) (by omega) (List.getElem?_eq_getElem (by omega))
    have next := (Kind.reference_around_blank begins (by omega) (by omega) blank).1
    by_cases last : (p.span b).2 - 1 - 1 = b.stop - 1
    · rw [last, closed] at next
      exact absurd next (by decide)
    · have letter := widens.trail _ _ (by omega) (by omega) next
      exact absurd letter (by decide)

theorem not_reference (takes : p.TakesScript b) :
    ¬ Kind.script.reference <+: p.page.drop b.start := by
  intro begins
  obtain ⟨tagStop, tagEnds, contentEq⟩ := Markup.isLeast_succ.mp takes.element.tag
  have close : p.page[b.start + 25]? = some (.scalar '>') :=
    Text.getElem?_of_begins begins (by decide)
  have quotes : Markup.openQuote (p.page.slice (b.start + 1) (b.start + 25)) = none := by
    rw [Text.slice_of_begins begins (by decide)]
    decide
  have bound : tagStop ≤ b.start + 25 := tagEnds.2 ⟨by omega, close, quotes⟩
  have first := tagEnds.1.2.1
  have ahead := tagEnds.1.1
  rw [Text.getElem?_eq_of_begins begins (Nat.le_of_lt ahead) (by
    rw [Kind.reference_length]
    omega)] at first
  have place := Kind.reference_close _ (by omega) first
  have tag : p.page.slice b.start b.contentStart = Kind.script.reference.slice 0 26 := by
    rw [contentEq, show tagStop + 1 = b.start + 26 by omega]
    exact Text.slice_of_begins begins (x := 0) (by decide)
  have extractable : b.kind = .script ∧ b.isExtractable := by
    have chosen : b ∈ p.chosen .script := by
      rw [takes.script]
      exact List.mem_singleton_self b
    exact suited_of_chosen chosen
  have member := mem_blocks_of_moved takes.mem_moved
  rw [takes.scanned] at member
  have attributes := Markup.block_attributes member
  rw [tag] at attributes
  have kept : b.isExtractable = false := by
    rw [Block.isExtractable, extractable.1, attributes]
    decide +kernel
  rw [kept] at extractable
  cases extractable.2

theorem not_in_span (takes : p.TakesScript b) {a : Nat} (behind : (p.span b).1 ≤ a)
    (before : a < (p.span b).2) : ¬ Kind.script.reference <+: p.page.drop a := by
  intro begins
  have here : p.page[a]? = some (.scalar '<') := Text.getElem?_of_begins begins (x := 0) rfl
  have widens := takes.widens
  have block : b.start ≤ a ∧ a < b.stop := by
    constructor
    · by_contra early
      have blank := (widens.lead a _ behind (by omega) here).1
      exact absurd blank (by decide)
    · by_contra late
      have blank := widens.trail a _ (by omega) before here
      exact absurd blank (by decide)
  rcases takes.bracket block.1 block.2 here with first | last
  · exact takes.not_reference (first ▸ begins)
  · have next := takes.symbol_behind_content
    rw [← last, Text.getElem?_of_begins begins (x := 1) rfl] at next
    exact absurd next (by decide)

/-- The reference is put in where none stands already: in front of the closing tag of the body or
    the page, or at the end. -/
theorem not_across_position (takes : p.TakesScript b) {a : Nat} (front : a < p.position .script)
    (beyond : p.position .script < a + 35) : ¬ Kind.script.reference <+: p.page.drop a := by
  intro begins
  rcases script_position_cases takes.scanned takes.plain with last | ⟨opened, letter⟩
  · have length := begins.length_le
    rw [List.length_drop, Kind.reference_length] at length
    omega
  · rw [Text.getElem?_eq_of_begins begins (Nat.le_of_lt front) beyond] at opened
    have place := Kind.reference_bracket _ (by omega) opened
    have third : p.page[p.position .script + 2]? = some (.scalar 's') := by
      rw [show p.position .script + 2 = a + 28 by omega]
      exact Text.getElem?_of_begins begins (by decide)
    rw [third] at letter
    revert letter
    decide

end TakesScript

end Plan

end Unbundle
