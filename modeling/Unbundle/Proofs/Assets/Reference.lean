import Unbundle.Proofs.Assets.Following
import Unbundle.Proofs.Assets.Settling

namespace Unbundle

namespace Markup

open Cursor (within)

/-- A scan of the page reports the script reference as a block that begins at the position. -/
def Live (page : Text) (i : Nat) : Prop :=
  ∃ b ∈ (scan page).blocks, b.kind = .script ∧ b.start = i ∧
    page.slice b.start b.stop = Kind.script.reference

theorem IsElement.unique {page : Text} {kind kind' : Kind}
    {start contentStart contentStart' contentEnd contentEnd' stop stop' : Nat}
    (left : IsElement page kind start contentStart contentEnd stop)
    (right : IsElement page kind' start contentStart' contentEnd' stop') :
    kind = kind' ∧ stop = stop' := by
  obtain rfl := nameAt_unique left.opens.2 right.opens.2
  obtain rfl := left.tag.unique right.tag
  obtain rfl := left.content.unique right.content
  exact ⟨rfl, left.element.unique right.element⟩

section Reference

variable {page : Text} {i : Nat} (begins : Kind.script.reference <+: page.drop i)

include begins

theorem reference_isElement : IsElement page .script i (i + 26) (i + 26) (i + 35) := by
  obtain ⟨rest, split⟩ := begins
  have later : ∀ k ≤ 35, page.drop (i + k) = Kind.script.reference.drop k ++ rest := by
    intro k inside
    rw [← List.drop_drop, ← split, List.drop_append_of_le_length inside]
  have begins : Kind.script.reference <+: page.drop i := ⟨rest, split⟩
  have named : ∀ k s, k ≤ 35 →
      Kind.script.name <+: (Kind.script.reference.drop k).map Sym.asciiLower →
      Kind.script.reference[k + 6]? = some s → endsName s →
      NameAt page Kind.script.name (i + k) := by
    intro k s inside name stands ends
    constructor
    · rw [later k inside, List.map_append]
      exact name.trans (List.prefix_append _ _)
    · intro s' stands'
      have same : page[i + k + 6]? = some s := by
        rw [Nat.add_assoc]
        exact Text.getElem?_of_begins begins stands
      have equal : some s' = some s := stands'.symm.trans same
      rw [Option.some.inj equal]
      exact ends
  have tagEnds : tagEnd? none (page.drop (i + 1)) = some 24 := by
    rw [later 1 (by decide), tagEnd?_append]
    rfl
  have last : (page.drop (i + 26)).findIdx? (· == .scalar '>') = some 8 := by
    rw [later 26 (by decide), List.findIdx?_append]
    rfl
  constructor
  · exact ⟨Text.getElem?_of_begins begins (x := 0) rfl,
      named 1 (.scalar ' ') (by decide) (by decide) (by decide) (by decide)⟩
  · exact isLeast_succ.mpr ⟨_, tagEnd_isLeast_endsTag tagEnds, by omega⟩
  · have name := named 28 (.scalar '>') (by decide) (by decide) (by decide) (by decide)
    refine ⟨⟨Nat.le_refl _, ?_, name⟩, fun n behind => behind.1⟩
    rw [later 26 (by decide)]
    have closing : ("</" : Text) <+: Kind.script.reference.drop 26 := by decide
    exact closing.trans (List.prefix_append _ _)
  · exact isLeast_succ.mpr ⟨_, findIdx_least last, by omega⟩

variable (plain : Sym.dottedI ∉ page)

include plain

theorem live_of_block {b : Block} (member : b ∈ (scan page).blocks) (here : b.start = i) :
    Live page i := by
  have element := isElement_of_mem plain member
  rw [here] at element
  obtain ⟨kind, stop⟩ := element.unique (reference_isElement begins)
  refine ⟨b, member, kind, here, ?_⟩
  rw [here, stop]
  exact Text.slice_of_begins begins (x := 0) (by decide)

theorem live_of_arrives (arrives : Arrives page (page.drop i)) : Live page i := by
  have opens := (reference_isElement begins).opens
  have inside := position_lt opens.1
  obtain ⟨ms, marks, -⟩ := arrives.scan plain inside
  cases read : (within page i).readTag with
  | none => exact absurd (readTag_halts read) (not_halts plain opens)
  | some found =>
    obtain ⟨mark, n⟩ := found
    have reading := readTag_reading read
    obtain ⟨b, rfl⟩ := block_of_element plain reading (reference_isElement begins)
    obtain ⟨_, _, _, _, _, start, -⟩ := reading.of_block rfl
    refine live_of_block begins plain (Marks.mem_blocks.mpr ?_) start
    rw [marks, marks_read opens.1 read]
    simp

theorem live_iff : Live page i ↔ ¬ Swallowed page i := by
  have inside := position_lt (reference_isElement begins).opens.1
  constructor
  · rintro ⟨b, member, -, start, -⟩ ⟨j, before, opened, arrives, beyond⟩
    obtain ⟨ms, marks, upTo⟩ := arrives.scan plain (position_lt opened)
    have length := ((scan_marks_wellFormed page).blocks b member).start_lt_stop
    rw [Marks.mem_blocks, marks, List.mem_append] at member
    rcases member with early | late
    · have ends : b.stop ≤ j := upTo _ early
      omega
    · cases read : (within page j).readTag with
      | none =>
        rw [marks_halt opened read] at late
        cases late
      | some found =>
        obtain ⟨mark, n⟩ := found
        have ends := beyond (n + 1) (reach_of_read plain read)
        rw [marks_read opened read, List.mem_append] at late
        rcases late with here | behind
        · rw [Option.mem_toList] at here
          obtain ⟨_, _, _, _, _, first, -⟩ := (readTag_reading read).of_block here
          omega
        · have later : j + n + 1 ≤ b.start := marks_from _ _ behind
          omega
  · intro spared
    exact live_of_arrives begins plain
      ((arrives_or_swallowed (Nat.le_of_lt inside)).resolve_right spared)

end Reference

end Markup

open Markup (Arrives Live Settled Swallowed)

namespace Plan

variable {p : Plan}

/-- The script reference stands in the markup behind `front`, at its place in the plan: behind what
    is written for the text in front of that place, and in front of what is written for the rest. -/
structure Puts (p : Plan) (markup front rest : Text) : Prop where
  reads : markup = front ++ Kind.script.reference ++ rest
  before : ∃ pad : Text, pad.isBlank ∧ front =
    p.stretch 0 (p.position .script) ++ p.inserted .style (p.position .script) ++ pad
  behind : ∃ pad : Text, pad.isBlank ∧ rest = pad ++
    ((if p.Deletes (p.position .script) then [] else p.page[p.position .script]?.toList) ++
      p.onward (p.position .script + 1))

theorem puts_arrives (formed : p.marks.WellFormed p.page) (chosen : p.chosen .script ≠ []) :
    ∃ front rest, p.Puts p.assets.markup front rest ∧
      Arrives (p.onward (p.position .script)) (Kind.script.reference ++ rest) := by
  have inside := position_le formed .script
  obtain ⟨before, behind, put, front, back⟩ := inserted_at chosen
  have onward := p.onward_succ inside
  rw [inserts, put] at onward
  refine ⟨_, _, ⟨?_, ⟨before, front, rfl⟩, ⟨behind, back, rfl⟩⟩, ?_⟩
  · rw [assets_stretch formed,
      ← p.stretch_append (Nat.zero_le _) (show p.position .script ≤ _ by omega)]
    change p.stretch 0 (p.position .script) ++ p.onward (p.position .script) = _
    rw [onward]
    simp only [List.append_assoc]
  · rw [onward]
    simp only [List.append_assoc]
    exact (p.style_passes _ _).trans (Arrives.passes (Text.not_mem_of_isBlank front (by decide)) _)

end Plan

/-- The reference to moved scripts stands at its place, and it is read there as what it is unless
    something that the scan reads in front of it extends over it. Nothing does so if the scan of the
    page itself comes to the place with nothing left open and no removal joins something new. -/
theorem Assets.ofText_reference_live (page : Text) (all : Bool) (plain : Sym.dottedI ∉ page)
    (moved : (ofText page all).scriptText ≠ none) :
    ∃ front rest, (Plan.make page all).Puts (ofText page all).markup front rest ∧
      (Live (ofText page all).markup front.length ↔
        ¬ Swallowed (ofText page all).markup front.length) ∧
      (Settled page ((Plan.make page all).position .script) → (Plan.make page all).JoinsNothing →
        Live (ofText page all).markup front.length) := by
  have formed : (Plan.make page all).marks.WellFormed (Plan.make page all).page :=
    Markup.scan_marks_wellFormed page
  have chosen : (Plan.make page all).chosen .script ≠ [] :=
    mt (Plan.text_none_iff _ .script).mpr moved
  obtain ⟨front, rest, puts, arrives⟩ := Plan.puts_arrives formed chosen
  have drops : (ofText page all).markup.drop front.length = Kind.script.reference ++ rest := by
    rw [show (ofText page all).markup = _ from puts.reads, List.append_assoc, List.drop_left]
  have begins : Kind.script.reference <+: (ofText page all).markup.drop front.length :=
    ⟨rest, drops.symm⟩
  have plain' : Sym.dottedI ∉ (ofText page all).markup := round_plain plain all
  refine ⟨front, rest, puts, Markup.live_iff begins plain', ?_⟩
  intro settled joins
  refine Markup.live_of_arrives begins plain' ?_
  rw [drops, ofText_stretch]
  exact (Plan.settled_arrives rfl plain joins settled (Nat.le_refl _)).trans arrives

/-- The style has no end, and the script in it is moved out. -/
def openStyle : Text := "<html><!--c--><style>b<script>a</script></html>"

theorem openStyle_settled : Settled openStyle 40 := by
  have endless : ∀ i, 14 + 6 < i → ¬ Markup.ClosesAt openStyle .style i := by
    intro i _ closes
    have opened : openStyle[i]? = some (.scalar '<') :=
      Text.getElem?_of_begins closes.1 (x := 0) rfl
    have never : ∀ i < 47, ¬ Markup.ClosesAt openStyle .style i := by decide +kernel
    exact never i (Markup.position_lt opened) closes
  have first : Settled openStyle 0 := .start
  have bracket : Settled openStyle 1 := first.closed (n := 0) (by decide) (by decide +kernel)
  have html : Settled openStyle 6 := bracket.passes (by decide) (by decide) (by decide)
  have comment : Settled openStyle 14 := html.closed (n := 7) (by decide) (by decide +kernel)
  have style : Settled openStyle 21 :=
    comment.unclosed (n := 6) (by decide) (by decide +kernel) (by decide) endless
  have letter : Settled openStyle 22 := style.passes (by decide) (by decide) (by decide)
  exact letter.closed (n := 17) (by decide) (by decide +kernel)

theorem openStyle_joins_nothing : (Plan.make openStyle false).JoinsNothing := by
  have opens : ∀ i < 47, openStyle[i]? = some (.scalar '<') →
      ¬ (Plan.make openStyle false).Deletes i →
      Markup.Begins (.scalar '<' :: (Plan.make openStyle false).onward (i + 1)) →
      Markup.Begins (openStyle.drop i) := by decide +kernel
  have closes : ∀ i < 47, openStyle[i]? = some (.scalar '<') →
      ¬ (Plan.make openStyle false).Deletes i →
      ¬ Markup.ClosesAt (.scalar '<' :: (Plan.make openStyle false).onward (i + 1)) .style 0 := by
    decide +kernel
  constructor
  · intro i opened
    exact opens i (Markup.position_lt opened) opened
  · intro i opened kept closing
    exact absurd closing (closes i (Markup.position_lt opened) opened kept)

theorem openStyle_reference_live : Sym.dottedI ∉ openStyle ∧
    (Assets.ofText openStyle false).scriptText ≠ none ∧
    ∃ front rest, (Plan.make openStyle false).Puts (Assets.ofText openStyle false).markup
      front rest ∧ Live (Assets.ofText openStyle false).markup front.length := by
  have plain : Sym.dottedI ∉ openStyle := by decide
  have chosen : (Plan.make openStyle false).chosen .script ≠ [] :=
    List.isEmpty_eq_false_iff.mp (by decide +kernel)
  have moved := mt (Plan.text_none_iff _ .script).mp chosen
  have place : (Plan.make openStyle false).position .script = 40 := by decide +kernel
  obtain ⟨front, rest, puts, -, live⟩ := Assets.ofText_reference_live openStyle false plain moved
  exact ⟨plain, moved, front, rest, puts,
    live (place ▸ openStyle_settled) openStyle_joins_nothing⟩

/-- The reference ends the script that has no end, and its own opening tag is text of that
    script. -/
theorem nestedScript_reference_dead : Sym.dottedI ∉ Assets.nestedScript ∧
    (Assets.ofText Assets.nestedScript false).scriptText ≠ none ∧
    ∀ i, ¬ Live (Assets.ofText Assets.nestedScript false).markup i := by
  refine ⟨by decide, ?_, ?_⟩
  · have chosen : (Plan.make Assets.nestedScript false).chosen .script ≠ [] :=
      List.isEmpty_eq_false_iff.mp (by decide +kernel)
    exact mt (Plan.text_none_iff _ .script).mp chosen
  · have missing : ∀ b ∈ (Markup.scan (Assets.ofText Assets.nestedScript false).markup).blocks,
        (Assets.ofText Assets.nestedScript false).markup.slice b.start b.stop ≠
          Kind.script.reference := by
      rw [Assets.ofText_stretch]
      decide +kernel
    rintro i ⟨b, member, -, -, whole⟩
    exact missing b member whole

end Unbundle
