import Unbundle.Assets
import Unbundle.Proofs.Markup.Letters

namespace Unbundle

namespace Markup

theorem lead_asciiLower (page : Text) (pos : Nat) :
    lead (page.map Sym.asciiLower) pos = (lead page pos).map Sym.asciiLower := by
  have line : ∀ s : Sym, (s.asciiLower != .scalar '\n') = (s != .scalar '\n') :=
    fun s => s.bne_asciiLower (by decide)
  rw [lead, ← List.map_take, ← List.map_reverse, Text.takeWhile_asciiLower line,
    ← List.map_reverse, lead]

theorem trail_asciiLower (page : Text) (pos : Nat) :
    trail (page.map Sym.asciiLower) pos = (trail page pos).map Sym.asciiLower := by
  have line := (page.asciiLower_alike.drop pos).findIdx? (.scalar '\n') (by decide)
  simp only [trail, line]
  split
  · rw [List.map_take, List.map_drop]
  · rw [List.map_drop]

theorem lineSpan_asciiLower (page : Text) (start stop : Nat) :
    lineSpan (page.map Sym.asciiLower) start stop = lineSpan page start stop := by
  simp only [lineSpan, lead_asciiLower, trail_asciiLower, Text.isBlank_asciiLower, List.length_map]

theorem endsWith_newline_asciiLower (page : Text) :
    Text.endsWith (page.map Sym.asciiLower) "\n" = page.endsWith "\n" := by
  have last := (Text.asciiLower_alike page.reverse).isPrefixOf "\n" (by decide)
  rw [List.map_reverse] at last
  exact last

theorem indented_asciiLower (page : Text) (pos : Nat) (tag : Text) :
    indented (page.map Sym.asciiLower) pos (tag.map Sym.asciiLower) =
      (indented page pos tag).map Sym.asciiLower := by
  simp only [indented, List.length_map, endsWith_newline_asciiLower, lead_asciiLower,
    Text.isBlank_asciiLower]
  split
  · split
    · rw [List.map_append]
      rfl
    · rfl
  · split
    · rfl
    · simp only [List.map_append]
      rfl

end Markup

namespace Edit

def folded (e : Edit) : Edit := { e with replacement := e.replacement.map Sym.asciiLower }

theorem splice_folded (page : Text) (cursor : Nat) (es : List Edit) :
    splice (page.map Sym.asciiLower) cursor (es.map folded) =
      (splice page cursor es).map Sym.asciiLower := by
  induction es generalizing cursor with
  | nil => rw [List.map_nil, splice, splice, List.map_drop]
  | cons e es ih =>
    have later := ih (max cursor e.stop)
    simp only [List.map_cons, splice, List.map_append, ← later, Text.slice_asciiLower, folded]

theorem applyAll_folded (page : Text) (es : List Edit) :
    applyAll (page.map Sym.asciiLower) (es.map folded) =
      (applyAll page es).map Sym.asciiLower := by
  have sorted : (es.mergeSort le).map folded = (es.map folded).mergeSort le :=
    List.map_mergeSort fun _ _ _ _ => rfl
  rw [applyAll, ← sorted, splice_folded, applyAll]

end Edit

def Assets.folded (a : Assets) : Assets := { a with
  markup := a.markup.map Sym.asciiLower
  styleText := a.styleText.map (List.map Sym.asciiLower)
  scriptText := a.scriptText.map (List.map Sym.asciiLower) }

namespace Plan

def folded (p : Plan) : Plan where
  page := p.page.map Sym.asciiLower
  all := p.all
  marks := p.marks.map Mark.folded

@[simp]
theorem all_folded (p : Plan) : p.folded.all = p.all := rfl

theorem make_asciiLower (page : Text) (all : Bool) :
    make (page.map Sym.asciiLower) all = (make page all).folded := by
  rw [make, Markup.scan_asciiLower]
  rfl

theorem found_folded (p : Plan) (kind : Kind) :
    p.folded.found kind = (p.found kind).map Block.folded := by
  rw [found, folded, Marks.extractable, Marks.blocks_folded, List.filter_map, found,
    Marks.extractable]
  simp only [Function.comp_def, Block.isExtractable_folded]
  rfl

theorem chosen_folded (p : Plan) (kind : Kind) :
    p.folded.chosen kind = (p.chosen kind).map Block.folded := by
  simp only [chosen, found_folded, all_folded]
  split
  · rfl
  · rw [List.map_take]

theorem position_folded (p : Plan) (kind : Kind) : p.folded.position kind = p.position kind := by
  have agree : p.folded.marks.Agree p.marks := Marks.agree_of_bare p.marks.bare_folded
  cases kind with
  | style =>
    simp only [position, agree.headClose, agree.bodyOpen, agree.htmlOpenEnd, agree.doctypeEnd]
  | script =>
    simp only [position, agree.bodyClose, agree.htmlClose]
    rw [folded, List.length_map]

theorem removals_folded (p : Plan) (kind : Kind) :
    p.folded.removals kind = (p.removals kind).map Edit.folded := by
  rw [removals, chosen_folded, removals, List.map_map, List.map_map]
  apply List.map_congr_left
  intro b _
  simp only [Function.comp_apply, folded, Markup.lineSpan_asciiLower, Block.folded, Edit.folded]
  rfl

theorem references_folded (p : Plan) (kind : Kind) :
    p.folded.references kind = (p.references kind).map Edit.folded := by
  have small : kind.reference.map Sym.asciiLower = kind.reference := by
    cases kind <;> decide
  have put := Markup.indented_asciiLower p.page (p.position kind) kind.reference
  rw [small] at put
  rw [references, chosen_folded, position_folded, references, List.isEmpty_map]
  split
  · rfl
  · rw [folded, put]
    rfl

theorem markup_folded (p : Plan) :
    p.folded.assets.markup = p.assets.markup.map Sym.asciiLower := by
  have edits : p.folded.edits = p.edits.map Edit.folded := by
    simp only [Plan.edits, removals_folded, references_folded, List.map_append]
  rw [assets, edits, assets, ← Edit.applyAll_folded]
  rfl

theorem joined_folded (kind : Kind) (inners : List Text) :
    (joined kind (inners.map (List.map Sym.asciiLower))).map Sym.asciiLower =
      (joined kind inners).map Sym.asciiLower := by
  have line : ∀ s : Sym, (s.asciiLower == .scalar '\n') = (s == .scalar '\n') :=
    fun s => s.beq_asciiLower (by decide)
  have piece : ∀ (number : Nat) (inner : Text),
      (numbered kind number (inner.map Sym.asciiLower)).map Sym.asciiLower =
        (numbered kind number inner).map Sym.asciiLower := by
    intro number inner
    rw [numbered, Text.trim_asciiLower line, numbered]
    simp [Function.comp_def]
  simp only [joined, List.map_append, Text.joinWith_asciiLower, List.zipIdx_map, List.map_map]
  congr 2
  apply List.map_congr_left
  intro entry _
  exact piece entry.2 entry.1

theorem inners_folded (p : Plan) (kind : Kind) :
    (p.folded.chosen kind).map (·.inner p.folded.page) =
      ((p.chosen kind).map (·.inner p.page)).map (List.map Sym.asciiLower) := by
  rw [chosen_folded, List.map_map, List.map_map]
  apply List.map_congr_left
  intro b _
  exact Text.slice_asciiLower p.page b.contentStart b.contentEnd

theorem text_folded (p : Plan) (kind : Kind) :
    (p.folded.text? kind).map (List.map Sym.asciiLower) =
      (p.text? kind).map (List.map Sym.asciiLower) := by
  rw [text?, inners_folded, text?]
  cases (p.chosen kind).map (·.inner p.page) with
  | nil => rfl
  | cons first rest =>
    by_cases all : p.all
    · have all' : p.folded.all := all
      simp only [List.map_cons, all, all', if_true, Option.map_some, Option.some.injEq]
      exact joined_folded kind (first :: rest)
    · simp [all, Function.comp_def]

theorem assets_folded (p : Plan) : p.folded.assets.folded = p.assets.folded := by
  have markup := p.markup_folded
  have style := p.text_folded .style
  have script := p.text_folded .script
  have count : ∀ kind, (p.folded.found kind).length = (p.found kind).length := by
    intro kind
    rw [found_folded, List.length_map]
  simp only [assets] at markup
  simp only [Assets.folded, assets, markup, style, script, count, Assets.mk.injEq, and_true]
  simp [Function.comp_def]

end Plan

namespace Assets

def lengths (a : Assets) : Nat × Option Nat × Option Nat :=
  (a.markup.length, a.styleText.map List.length, a.scriptText.map List.length)

/-- The same numbers of blocks, and texts that differ in the case of ASCII letters only. -/
structure SameLetters (a b : Assets) : Prop where
  styleBlocks : a.styleBlocks = b.styleBlocks
  scriptBlocks : a.scriptBlocks = b.scriptBlocks
  lengths : a.lengths = b.lengths
  markup : a.markup.SameLetters b.markup
  styleText : Option.Rel Text.SameLetters a.styleText b.styleText
  scriptText : Option.Rel Text.SameLetters a.scriptText b.scriptText

theorem sameLetters_of_folded {a b : Assets} (same : a.folded = b.folded) : a.SameLetters b := by
  simp only [folded, mk.injEq] at same
  obtain ⟨markup, style, script, styleBlocks, scriptBlocks⟩ := same
  have letters := Text.sameLetters_iff.mpr markup
  have styleText := Text.rel_sameLetters style
  have scriptText := Text.rel_sameLetters script
  refine ⟨styleBlocks, scriptBlocks, ?_, letters, styleText, scriptText⟩
  rw [lengths, lengths, letters.length_eq, Text.lengths_of_rel styleText,
    Text.lengths_of_rel scriptText]

/-- The case of ASCII letters makes no difference to where a page is cut and to what is moved out of
    it, and shows in the assets in these letters alone. -/
theorem ofText_ignores_case {a b : Text} (same : a.SameLetters b) :
    (Markup.scan a).Agree (Markup.scan b) ∧
      (Markup.scan a).blocks.map Block.verdict = (Markup.scan b).blocks.map Block.verdict ∧
      ∀ all, (ofText a all).SameLetters (ofText b all) := by
  have page := Text.sameLetters_iff.mp same
  have marks : (Markup.scan a).map Mark.folded = (Markup.scan b).map Mark.folded := by
    rw [← Markup.scan_asciiLower, page, Markup.scan_asciiLower]
  have bare : (Markup.scan a).map Mark.bare = (Markup.scan b).map Mark.bare := by
    rw [← Marks.bare_folded, marks, Marks.bare_folded]
  have verdicts : (Markup.scan a).blocks.map Block.verdict =
      (Markup.scan b).blocks.map Block.verdict := by
    rw [← Marks.verdicts_folded, marks, Marks.verdicts_folded]
  refine ⟨Marks.agree_of_bare bare, verdicts, ?_⟩
  intro all
  have plan : (Plan.make a all).folded = (Plan.make b all).folded := by
    rw [← Plan.make_asciiLower, page, Plan.make_asciiLower]
  apply sameLetters_of_folded
  rw [ofText, ← Plan.assets_folded, plan, Plan.assets_folded, ofText]

def foreign : Text := "İΟΔΟΣ"

def quietPage : Text :=
  "<script type='text/javascript'>a</script><style>" ++ foreign ++ "</style>"

def loudPage : Text :=
  "<SCRIPT Type='Text/JavaScript'>A</Script><STYLE>" ++ foreign ++ "</Style>"

theorem ofText_ignores_case_of_loudPage : loudPage.SameLetters quietPage ∧
    (Markup.scan quietPage).blocks.map Block.verdict = [([("type" : Text)], true), ([], true)] ∧
    (Markup.scan loudPage).Agree (Markup.scan quietPage) ∧
    (Markup.scan loudPage).blocks.map Block.verdict =
      (Markup.scan quietPage).blocks.map Block.verdict ∧
    ∀ all, (ofText loudPage all).SameLetters (ofText quietPage all) := by
  have same : loudPage.SameLetters quietPage := Text.sameLetters_iff.mpr (by decide +kernel)
  refine ⟨same, by decide +kernel, ?_⟩
  exact ofText_ignores_case same

end Assets

end Unbundle
