import Unbundle.Proofs.Markup.Arriving
import Unbundle.Proofs.Markup.Letters

namespace Unbundle

def Block.shift (n : Nat) (b : Block) : Block :=
  { b with
    start := b.start + n
    contentStart := b.contentStart + n
    contentEnd := b.contentEnd + n
    stop := b.stop + n }

def Mark.shift (n : Nat) : Mark → Mark
  | .doctype i => .doctype (i + n)
  | .htmlOpen i => .htmlOpen (i + n)
  | .headClose i => .headClose (i + n)
  | .bodyOpen i => .bodyOpen (i + n)
  | .bodyClose i => .bodyClose (i + n)
  | .htmlClose i => .htmlClose (i + n)
  | .block b => .block (b.shift n)
  | .unclosed kind => .unclosed kind

theorem Mark.shift_shift (m n : Nat) (mark : Mark) :
    (mark.shift m).shift n = mark.shift (n + m) := by
  cases mark <;> simp [shift, Block.shift, Nat.add_assoc, Nat.add_comm m n]

namespace Marks

/-- The same marks, blocks and verdicts on them, with every position `n` symbols further on. -/
structure Behind (n : Nat) (ms ns : Marks) : Prop where
  doctypeEnd : ms.doctypeEnd? = ns.doctypeEnd?.map (· + n)
  htmlOpenEnd : ms.htmlOpenEnd? = ns.htmlOpenEnd?.map (· + n)
  headClose : ms.headClose? = ns.headClose?.map (· + n)
  bodyOpen : ms.bodyOpen? = ns.bodyOpen?.map (· + n)
  bodyClose : ms.bodyClose? = ns.bodyClose?.map (· + n)
  htmlClose : ms.htmlClose? = ns.htmlClose?.map (· + n)
  unclosed : ms.unclosed? = ns.unclosed?
  blocks : ms.blocks = ns.blocks.map (Block.shift n)
  extractable : ms.blocks.map Block.isExtractable = ns.blocks.map Block.isExtractable

theorem first?_shift {n : Nat} (ms : Marks) {view : Mark → Option Nat}
    (moves : ∀ m, view (m.shift n) = (view m).map (· + n)) :
    first? (ms.map (Mark.shift n)) view = (ms.first? view).map (· + n) := by
  simp only [first?, List.findSome?_map, Function.comp_def, moves]
  induction ms with
  | nil => rfl
  | cons m ms ih =>
    rw [List.findSome?_cons, List.findSome?_cons]
    cases view m with
    | none => exact ih
    | some i => rfl

theorem last?_eq_first? {α : Type} (ms : Marks) (view : Mark → Option α) :
    ms.last? view = first? ms.reverse view := rfl

theorem last?_shift {n : Nat} (ms : Marks) {view : Mark → Option Nat}
    (moves : ∀ m, view (m.shift n) = (view m).map (· + n)) :
    last? (ms.map (Mark.shift n)) view = (ms.last? view).map (· + n) := by
  rw [last?_eq_first?, ← List.map_reverse, first?_shift ms.reverse moves, ← last?_eq_first?]

theorem blocks_shift (n : Nat) (ms : Marks) :
    blocks (ms.map (Mark.shift n)) = ms.blocks.map (Block.shift n) := by
  simp only [blocks, List.filterMap_map, List.map_filterMap]
  congr 1
  funext m
  cases m <;> rfl

theorem behind_shift (n : Nat) (ms : Marks) : Behind n (ms.map (Mark.shift n)) ms where
  doctypeEnd := first?_shift ms fun m => by cases m <;> rfl
  htmlOpenEnd := first?_shift ms fun m => by cases m <;> rfl
  headClose := first?_shift ms fun m => by cases m <;> rfl
  bodyOpen := first?_shift ms fun m => by cases m <;> rfl
  bodyClose := last?_shift ms fun m => by cases m <;> rfl
  htmlClose := last?_shift ms fun m => by cases m <;> rfl
  unclosed := by
    have same : ∀ m : Mark, (m.shift n).unclosed? = m.unclosed? := fun m => by cases m <;> rfl
    simp only [unclosed?, last?, ← List.map_reverse, List.findSome?_map, Function.comp_def, same]
  blocks := blocks_shift n ms
  extractable := by
    rw [blocks_shift, List.map_map]
    rfl

end Marks

namespace Markup

namespace Cursor

def shift (n : Nat) (c : Cursor) : Cursor := { c with pos := c.pos + n }

theorem toTag?_shift (n : Nat) (c : Cursor) : (c.shift n).toTag? = c.toTag?.map (shift n) := by
  unfold toTag?
  rw [Option.map_map]
  change (c.rest.findIdx? _).map _ = _
  congr 1
  funext k
  simp [shift, advance, Nat.add_right_comm]

theorem readBlock_shift (n : Nat) (c : Cursor) (kind : Kind) :
    (c.shift n).readBlock kind = ((c.readBlock kind).1.shift n, (c.readBlock kind).2) := by
  simp only [readBlock, shift]
  cases tagEnd? none (c.rest.drop 1) with
  | none => rfl
  | some m =>
    dsimp only
    cases closing? kind.name (c.low.drop (m + 2)) with
    | none => rfl
    | some k =>
      dsimp only
      cases (c.rest.drop (m + 2 + k)).findIdx? (· == .scalar '>') with
      | none => rfl
      | some l => simp [Mark.shift, Block.shift, Nat.add_right_comm _ n]

theorem landmark?_shift (n : Nat) (c : Cursor) :
    (c.shift n).landmark? = c.landmark?.map (Mark.shift n) := by
  have opens : ∀ name, (c.shift n).opens name = c.opens name := fun _ => rfl
  have closes : ∀ name, (c.shift n).closes name = c.closes name := fun _ => rfl
  have rest : (c.shift n).rest = c.rest := rfl
  unfold landmark?
  simp only [opens, closes, rest]
  split
  · rw [Option.map_map]
    congr 1
    funext k
    simp [Mark.shift, shift, Nat.add_right_comm]
  · repeat' split
    all_goals rfl

theorem readTag_shift (n : Nat) (c : Cursor) :
    (c.shift n).readTag = c.readTag.map fun read => (read.1.map (Mark.shift n), read.2) := by
  have starts : ∀ t, (c.shift n).startsWith t = c.startsWith t := fun _ => rfl
  have kinds : (c.shift n).blockKind? = c.blockKind? := rfl
  have rest : (c.shift n).rest = c.rest := rfl
  have low : (c.shift n).low = c.low := rfl
  unfold readTag
  simp only [starts, kinds, rest, low, landmark?_shift, readBlock_shift]
  split
  · simp [Function.comp_def]
  · split
    · rw [Option.map_map]
      congr 1
      funext k
      split
      · simp [Mark.shift, shift, Nat.add_right_comm, *]
      · simp [*]
    · split
      · rfl
      · rfl

theorem next?_shift (n : Nat) (c : Cursor) :
    (c.shift n).next? = c.next?.map fun next => (next.1.map (Mark.shift n), next.2.shift n) := by
  unfold next?
  rw [toTag?_shift]
  cases c.toTag? with
  | none => rfl
  | some tag =>
    simp only [Option.map_some, Option.bind_some, readTag_shift, Option.map_map]
    congr 1
    funext read
    simp [shift, advance, Nat.add_right_comm]

theorem marks_shift (n : Nat) (c : Cursor) : (c.shift n).marks = c.marks.map (Mark.shift n) := by
  fun_induction marks c with
  | case1 c none =>
    have last : c.next? = Option.none := by simp [next?, none]
    rw [marks_next, next?_shift, last]
    rfl
  | case2 c tag found none =>
    have last : c.next? = Option.none := by simp [next?, found, none]
    rw [marks_next, next?_shift, last]
    rfl
  | case3 c tag found mark k read ih =>
    have next : c.next? = some (mark, tag.advance (k + 1)) := by simp [next?, found, read]
    rw [marks_next, next?_shift, next]
    simp [ih, Option.toList_map]

end Cursor

open Cursor (within)

variable {page front rest : Text}

theorem lower_append (plain : Sym.dottedI ∉ front) (rest : Text) :
    Text.Alike tagChars (front ++ rest).lower (front.map Sym.asciiLower ++ rest.lower) := by
  have first : (front.flatMap fun s => s.lower.map (Sym.among tagChars)) =
      (front.map Sym.asciiLower).map (Sym.among tagChars) := by
    rw [← Text.lowerAfter_among false, ← Text.lower, Text.lower_among plain]
  rw [Text.alike_iff_map, List.map_append, Text.lower, Text.lower, Text.lowerAfter_among,
    Text.lowerAfter_among, List.flatMap_append, first]

theorem lower_behind (plain : Sym.dottedI ∉ front) (rest : Text) :
    Text.Alike tagChars ((front ++ rest).lower.drop front.length) rest.lower := by
  have behind := (lower_append plain rest).drop front.length
  rwa [List.drop_left' (List.length_map _)] at behind

/-- A scan that comes to the end of the text in front with nothing found goes on as it begins in the
    rest alone. -/
theorem scan_behind (plain : Sym.dottedI ∉ front)
    (passes : scan (front ++ rest) = (within (front ++ rest) front.length).marks) :
    scan (front ++ rest) = (scan rest).map (Mark.shift front.length) := by
  have alike : (within (front ++ rest) front.length).Alike
      ((Cursor.ofText rest).shift front.length) := by
    refine ⟨by simp [within, Cursor.shift, Cursor.ofText], ?_, lower_behind plain rest⟩
    simp only [within, List.drop_left]
    exact Text.alike_iff_map.mpr rfl
  have bare := alike.marks
  rw [← passes, Cursor.marks_shift] at bare
  rw [← scan_attributed (front ++ rest), bare, List.map_map, List.map_map]
  apply List.map_congr_left
  intro m member
  cases m with
  | block b =>
    have attributes := block_attributes (Marks.mem_blocks.mpr member)
    have tag : (front ++ rest).slice (b.start + front.length) (b.contentStart + front.length) =
        rest.slice b.start b.contentStart := by
      rw [Text.slice, Text.slice, Nat.add_sub_add_right, Nat.add_comm, ← List.drop_drop,
        List.drop_left]
    simp only [Function.comp_apply, Mark.shift, Mark.bare, Mark.attributed, Block.shift,
      Block.bare, tag, ← attributes]
  | _ => rfl

theorem marks_passed {i j : Nat} (range : i ≤ j)
    (quiet : ∀ x s, i ≤ x → x < j → page[x]? = some s → s ≠ .scalar '<')
    (inside : j ≤ page.length) : (within page i).marks = (within page j).marks := by
  induction j, range using Nat.le_induction with
  | base => rfl
  | succ j range ih =>
    have stands := List.getElem?_eq_getElem (show j < page.length by omega)
    rw [ih (fun x s behind before => quiet x s behind (by omega)) (by omega),
      marks_skip stands (quiet j _ range (Nat.lt_succ_self j) stands)]

theorem scan_passes_text (tagless : .scalar '<' ∉ front) (rest : Text) :
    scan (front ++ rest) = (within (front ++ rest) front.length).marks := by
  refine marks_passed (Nat.zero_le _) ?_ (by simp)
  intro x s _ before stands bracket
  rw [List.getElem?_append_left before, bracket] at stands
  exact tagless (List.mem_of_getElem? stands)

theorem find?_comment_end {c : Text} (unended : ¬ ("-->" : Text) <:+: c) (rest : Text) :
    Text.find? "-->" (c ++ "-->" ++ rest) = some c.length := by
  have here : ("-->" : Text) <+: (c ++ "-->" ++ rest).drop c.length := by
    rw [List.append_assoc, List.drop_left]
    exact List.prefix_append _ _
  have searches : Searches (Text.find? "-->") ("-->" : Text).isPrefixOf := find_searches (by decide)
  cases found : Text.find? "-->" (c ++ "-->" ++ rest) with
  | none => exact absurd (List.isPrefixOf_iff_prefix.mpr here) (searches.never found c.length)
  | some n =>
    obtain ⟨begins, first⟩ := searches.least found
    have bound : n ≤ c.length := first (List.isPrefixOf_iff_prefix.mpr here)
    have begins := List.isPrefixOf_iff_prefix.mp begins
    rcases Nat.lt_or_eq_of_le bound with early | same
    · exfalso
      -- The last symbol of an earlier end would be one of the two hyphens.
      have last := Text.getElem?_of_begins begins (x := 2) (s := .scalar '>') rfl
      have within_c : n + 3 ≤ c.length := by
        by_contra beyond
        have hyphen : n + 2 = c.length ∨ n + 2 = c.length + 1 := by omega
        rw [List.append_assoc, List.getElem?_append_right (by omega)] at last
        rcases hyphen with same | same
        · rw [same, Nat.sub_self] at last
          cases last
        · rw [same, Nat.add_sub_cancel_left] at last
          cases last
      rw [List.append_assoc, List.drop_append_of_le_length (by omega)] at begins
      have inside : ("-->" : Text) <+: c.drop n :=
        List.prefix_of_prefix_length_le begins (List.prefix_append _ _)
          (show 3 ≤ (c.drop n).length by rw [List.length_drop]; omega)
      exact unended (inside.isInfix.trans (List.drop_suffix n c).isInfix)
    · rw [same]

theorem scan_passes_comment {c : Text} (unended : ¬ ("-->" : Text) <:+: c) (rest : Text) :
    scan ("<!--" ++ c ++ "-->" ++ rest) =
      (within ("<!--" ++ c ++ "-->" ++ rest) (("<!--" : Text) ++ c ++ "-->").length).marks := by
  have opened : (("<!--" : Text) ++ c ++ "-->" ++ rest)[0]? = some (.scalar '<') := rfl
  have begins : (within ("<!--" ++ c ++ "-->" ++ rest) 0).startsWith "<!--" := by
    have plain : Sym.dottedI ∉ ("<!--" : Text) := by decide
    have low := lower_append plain (c ++ "-->" ++ rest)
    rw [← List.append_assoc, ← List.append_assoc] at low
    exact (low.isPrefixOf "<!--" (by decide)).trans rfl
  have read : (within ("<!--" ++ c ++ "-->" ++ rest) 0).readTag = some (none, c.length + 6) := by
    unfold Cursor.readTag
    rw [if_pos begins]
    change (Text.find? "-->" (c ++ "-->" ++ rest)).map _ = _
    rw [find?_comment_end unended]
    rfl
  have length : (("<!--" : Text) ++ c ++ "-->").length = 0 + (c.length + 6) + 1 := by
    have four : ("<!--" : Text).length = 4 := rfl
    have three : ("-->" : Text).length = 3 := rfl
    rw [List.length_append, List.length_append, four, three]
    omega
  rw [length]
  exact marks_read opened read

/-- Texts without a `<` and closed comments, one behind the other. -/
inductive Preamble : Text → Prop
  | nil : Preamble []
  | text {t p : Text} (tagless : .scalar '<' ∉ t) (rest : Preamble p) : Preamble (t ++ p)
  | comment {c p : Text} (unended : ¬ ("-->" : Text) <:+: c) (rest : Preamble p) :
      Preamble ("<!--" ++ c ++ "-->" ++ p)

theorem scan_shift {p : Text} (preamble : Preamble p) (plain : Sym.dottedI ∉ p) (t : Text) :
    scan (p ++ t) = (scan t).map (Mark.shift p.length) := by
  have onward : ∀ {front p : Text}, Sym.dottedI ∉ front ++ p →
      (∀ rest, scan (front ++ rest) = (within (front ++ rest) front.length).marks) →
      (Sym.dottedI ∉ p → scan (p ++ t) = (scan t).map (Mark.shift p.length)) →
      scan (front ++ p ++ t) = (scan t).map (Mark.shift (front ++ p).length) := by
    intro front p plain passes later
    obtain ⟨here, behind⟩ := not_or.mp (mt List.mem_append.mpr plain)
    rw [List.append_assoc, scan_behind here (passes _), later behind, List.map_map,
      List.length_append]
    exact List.map_congr_left fun m _ => m.shift_shift _ _
  induction preamble with
  | nil =>
    have still : Mark.shift 0 = id := funext fun m => by cases m <;> rfl
    rw [List.nil_append, List.length_nil, still, List.map_id]
  | text tagless _ later => exact onward plain (scan_passes_text tagless) later
  | comment unended _ later => exact onward plain (scan_passes_comment unended) later

/-- Comments and text without tags in front of a page move what a scan finds in it, and change
    nothing else. In particular no block is found in them. -/
theorem scan_behind_preamble {p : Text} (preamble : Preamble p) (plain : Sym.dottedI ∉ p)
    (t : Text) : (scan (p ++ t)).Behind p.length (scan t) ∧
      ∀ b ∈ (scan (p ++ t)).blocks, p.length ≤ b.start := by
  rw [scan_shift preamble plain]
  refine ⟨Marks.behind_shift p.length (scan t), ?_⟩
  intro b member
  rw [Marks.blocks_shift, List.mem_map] at member
  obtain ⟨b', -, rfl⟩ := member
  exact Nat.le_add_left p.length b'.start

/-- A comment that holds a style element and hyphens at its end. -/
def hyphenComment : Text := "x<!--<style>a</style>---->É"

/-- The sigma that follows becomes a final one by the letter in front of it, and the U+0130 behind
    it lets the page and its lower case drift apart. -/
def sigmaPage : Text := "Σ<script İ>b</script><body>"

theorem scan_behind_preamble_of_hyphenComment : Preamble hyphenComment ∧
    Sym.dottedI ∉ hyphenComment ∧
    (hyphenComment ++ sigmaPage).lower ≠ hyphenComment.lower ++ sigmaPage.lower ∧
    (scan sigmaPage).blocks.map Block.start = [1] ∧
    (scan (hyphenComment ++ sigmaPage)).Behind 27 (scan sigmaPage) ∧
    ∀ b ∈ (scan (hyphenComment ++ sigmaPage)).blocks, 27 ≤ b.start := by
  have letter : Preamble "É" := .text (t := "É") (by decide) .nil
  have comment : Preamble ("<!--" ++ "<style>a</style>--" ++ "-->" ++ "É") :=
    .comment (by decide +kernel) letter
  have preamble : Preamble hyphenComment := .text (t := "x") (by decide) comment
  have plain : Sym.dottedI ∉ hyphenComment := by decide
  exact ⟨preamble, plain, by decide +kernel, by decide +kernel,
    scan_behind_preamble preamble plain sigmaPage⟩

end Markup

end Unbundle
