import Unbundle.Proofs.Markup.Alike
import Unbundle.Proofs.Markup.Placement

namespace Unbundle

namespace Markup

open Cursor (within)

/-- The name stands at the position, its ASCII letters in either case, and ends there. -/
def NameAt (page name : Text) (i : Nat) : Prop :=
  name <+: (page.drop i).map Sym.asciiLower ∧ ∀ s, page[i + name.length]? = some s → endsName s

def OpensAt (page : Text) (kind : Kind) (i : Nat) : Prop :=
  page[i]? = some (.scalar '<') ∧ NameAt page kind.name (i + 1)

def ClosesAt (page : Text) (kind : Kind) (i : Nat) : Prop :=
  ("</" : Text) <+: page.drop i ∧ NameAt page kind.name (i + 2)

/-- A complete element: an opening tag up to its first `>` outside quotes, content up to the first
    closing tag behind it, and that tag up to its first `>`. -/
structure IsElement (page : Text) (kind : Kind) (start contentStart contentEnd stop : Nat) :
    Prop where
  opens : OpensAt page kind start
  tag : IsLeast {n | ∃ i, EndsTag page start i ∧ n = i + 1} contentStart
  content : IsLeast {n | contentStart ≤ n ∧ ClosesAt page kind n} contentEnd
  element : IsLeast {n | ∃ i, (contentEnd ≤ i ∧ page[i]? = some (.scalar '>')) ∧ n = i + 1} stop

/-- What keeps a scan from reading the `<` at `i`: it stands inside of what begins at `j`. -/
inductive Hides (page : Text) (i j : Nat) : Prop
  | comment (begins : ("<!--" : Text) <+: page.drop j)
      (ends : ∀ n, j + 4 ≤ n → ("-->" : Text) <+: page.drop n → i < n + 3)
  | declaration (comment : ¬ ("<!--" : Text) <+: page.drop j)
      (begins : ("<!" : Text) <+: page.drop j ∨ ("<?" : Text) <+: page.drop j)
      (ends : ∀ n, j ≤ n → page[n]? = some (.scalar '>') → i < n)
  | unclosed (kind : Kind) (contentStart : Nat) (opens : OpensAt page kind j)
      (tag : IsLeast {n | ∃ i, EndsTag page j i ∧ n = i + 1} contentStart)
      (beyond : i < contentStart)
      (incomplete : ∀ contentEnd stop, ¬ IsElement page kind j contentStart contentEnd stop)

theorem isLeast_succ {P : Nat → Prop} {n : Nat} :
    IsLeast {m | ∃ i, P i ∧ m = i + 1} n ↔ ∃ i, IsLeast {i | P i} i ∧ n = i + 1 := by
  constructor
  · intro least
    obtain ⟨⟨i, holds, rfl⟩, first⟩ := least
    exact ⟨i, ⟨holds, fun j other => Nat.le_of_succ_le_succ (first ⟨j, other, rfl⟩)⟩, rfl⟩
  · intro least
    obtain ⟨i, ⟨holds, first⟩, rfl⟩ := least
    refine ⟨⟨i, holds, rfl⟩, ?_⟩
    intro m behind
    obtain ⟨j, other, rfl⟩ := behind
    exact Nat.succ_le_succ (first other)

theorem NameAt.head {page : Text} {kind : Kind} {i : Nat} (named : NameAt page kind.name i) :
    page[i]?.map Sym.asciiLower = some (.scalar 's') := by
  obtain ⟨rest, split⟩ := named.1
  have first := congrArg List.head? split.symm
  rw [List.head?_map, List.head?_drop] at first
  rw [first]
  cases kind <;> rfl

theorem nameAt_unique {page : Text} {kind kind' : Kind} {i : Nat}
    (left : NameAt page kind.name i) (right : NameAt page kind'.name i) : kind = kind' := by
  rcases List.prefix_or_prefix_of_prefix left.1 right.1 with before | before
  · revert before
    cases kind <;> cases kind' <;> decide
  · revert before
    cases kind <;> cases kind' <;> decide

theorem OpensAt.not_declaration {page : Text} {kind : Kind} {i : Nat}
    (opens : OpensAt page kind i) {c : Char} (other : c = '!' ∨ c = '?') {rest : Text} :
    ¬ (.scalar '<' :: .scalar c :: rest) <+: page.drop i := by
  intro begins
  obtain ⟨behind, split⟩ := begins
  have second : page[i + 1]? = some (.scalar c) := by
    rw [← List.getElem?_drop, ← split]
    rfl
  have named := opens.2.head
  rw [second] at named
  rcases other with rfl | rfl
  · revert named
    decide
  · revert named
    decide

theorem namesTag_folded_iff (name t : Text) (i : Nat) :
    namesTag name ((t.map Sym.asciiLower).drop i) ↔ NameAt t name i := by
  have boundary := (t.asciiLower_alike.drop (i + name.length)).boundary (by decide)
  rw [namesTag, List.drop_drop, boundary, List.head?_drop, Bool.and_eq_true, Option.all_eq_true,
    List.isPrefixOf_iff_prefix, ← List.map_drop]
  rfl

instance (page name : Text) (i : Nat) : Decidable (NameAt page name i) :=
  decidable_of_iff _ (namesTag_folded_iff name page i)

instance (page : Text) (kind : Kind) (i : Nat) : Decidable (OpensAt page kind i) :=
  inferInstanceAs (Decidable (_ ∧ _))

instance (page : Text) (kind : Kind) (i : Nat) : Decidable (ClosesAt page kind i) :=
  inferInstanceAs (Decidable (_ ∧ _))

section Plain

variable {page : Text} (plain : Sym.dottedI ∉ page)

include plain

theorem namesTag_lower_iff {name : Text} (seen : ∀ x ∈ name, x.isOneOf tagChars) (i : Nat) :
    namesTag name (page.lower.drop i) ↔ NameAt page name i := by
  rw [((Text.lower_alike_asciiLower plain).drop i).namesTag name seen, namesTag_folded_iff]

theorem opens_lower_iff (kind : Kind) (i : Nat) :
    namesTag kind.name (page.lower.drop i) ↔ NameAt page kind.name i :=
  namesTag_lower_iff plain kind.name_seen i

theorem prefix_lower_iff {needle : Text} (seen : ∀ x ∈ needle, x.isOneOf punctuation) (i : Nat) :
    needle.isPrefixOf (page.lower.drop i) ↔ needle <+: page.drop i := by
  rw [((Text.lower_alike_page plain).drop i).isPrefixOf needle seen, List.isPrefixOf_iff_prefix]

theorem closes_lower_iff (kind : Kind) (i : Nat) :
    closes kind.name (page.lower.drop i) ↔ ClosesAt page kind i := by
  rw [closes, Bool.and_eq_true, List.drop_drop, opens_lower_iff plain,
    prefix_lower_iff plain (by decide)]
  rfl

theorem isElement_iff {kind : Kind} {start tagStop contentEnd stop : Nat}
    (opens : OpensAt page kind start) (tagEnds : IsLeast {i | EndsTag page start i} tagStop) :
    IsElement page kind start (tagStop + 1) contentEnd stop ↔
      ∃ last, ClosesBehind page kind tagStop contentEnd last ∧ stop = last + 1 := by
  have closing : {i | tagStop < i ∧ closes kind.name (page.lower.drop i)} =
      {n | tagStop + 1 ≤ n ∧ ClosesAt page kind n} := by
    ext i
    exact and_congr Iff.rfl (closes_lower_iff plain kind i)
  constructor
  · intro element
    obtain ⟨last, ends, same⟩ := isLeast_succ.mp element.element
    exact ⟨last, ⟨closing ▸ element.content, ends⟩, same⟩
  · intro closing
    obtain ⟨last, closes, rfl⟩ := closing
    exact {
      opens := opens
      tag := isLeast_succ.mpr ⟨tagStop, tagEnds, rfl⟩
      content := closing ▸ closes.begins
      element := isLeast_succ.mpr ⟨last, closes.ends, rfl⟩ }

theorem isElement_of_reading {start stop : Nat} {mark : Option Mark} {b : Block}
    (opened : page[start]? = some (.scalar '<')) (reading : Reading page start mark stop)
    (found : mark = some (.block b)) :
    IsElement page b.kind b.start b.contentStart b.contentEnd b.stop := by
  obtain ⟨tagStop, last, begins, tagEnds, closes, startEq, contentEq, stopEq, -⟩ :=
    reading.of_block found
  rw [startEq, contentEq, stopEq]
  have opens : OpensAt page b.kind start := ⟨opened, (opens_lower_iff plain _ _).mp begins⟩
  exact (isElement_iff plain opens tagEnds).mpr ⟨last, closes, rfl⟩

theorem isElement_of_mem {b : Block} (member : b ∈ (scan page).blocks) :
    IsElement page b.kind b.start b.contentStart b.contentEnd b.stop := by
  have sound : ∀ b, .block b ∈ scan page →
      IsElement page b.kind b.start b.contentStart b.contentEnd b.stop := by
    refine scan_induction (motive := fun _ ms => ∀ b, .block b ∈ ms →
      IsElement page b.kind b.start b.contentStart b.contentEnd b.stop) ?_ ?_ ?_
    · simp
    · simp
    · intro pos start mark stop ms first reading later b member
      rcases List.mem_append.mp member with here | behind
      · exact isElement_of_reading plain first.1.2 reading (Option.mem_toList.mp here)
      · exact later b behind
  exact sound b (Marks.mem_blocks.mp member)

theorem not_comment {kind : Kind} {i : Nat} (opens : OpensAt page kind i) :
    ¬ ("<!--" : Text).isPrefixOf (page.lower.drop i) := by
  rw [prefix_lower_iff plain (by decide)]
  exact opens.not_declaration (.inl rfl)

theorem not_declaration {kind : Kind} {i : Nat} (opens : OpensAt page kind i) :
    ¬ (("<!" : Text).isPrefixOf (page.lower.drop i) ∨
      ("<?" : Text).isPrefixOf (page.lower.drop i)) := by
  rw [prefix_lower_iff plain (by decide), prefix_lower_iff plain (by decide)]
  intro either
  rcases either with begins | begins
  · exact opens.not_declaration (.inl rfl) begins
  · exact opens.not_declaration (.inr rfl) begins

theorem block_of_element {start stop : Nat} {mark : Option Mark}
    (reading : Reading page start mark stop) {kind : Kind}
    {contentStart contentEnd elementStop : Nat}
    (element : IsElement page kind start contentStart contentEnd elementStop) :
    ∃ b, mark = some (.block b) := by
  have opens := element.opens
  obtain ⟨tagStop, tagEnds, rfl⟩ := isLeast_succ.mp element.tag
  cases reading with
  | comment begins ends => exact absurd begins (not_comment plain opens)
  | declaration comment begins ends => exact absurd begins (not_declaration plain opens)
  | block begins tagEnds' closes => exact ⟨_, rfl⟩
  | unopened begins endless => exact absurd tagEnds.1 (endless tagStop)
  | unclosed begins tagEnds' endless =>
    obtain rfl := nameAt_unique opens.2 ((opens_lower_iff plain _ _).mp begins)
    obtain rfl := tagEnds.unique tagEnds'
    obtain ⟨last, closes, -⟩ := (isElement_iff plain opens tagEnds).mp element
    exact absurd closes (endless contentEnd last)
  | other block => exact absurd ((opens_lower_iff plain kind _).mpr opens.2) (block kind)

/-- What a scan passes over without reading it lies in a block or is hidden. -/
theorem covered_or_hidden {start stop i : Nat} {mark : Option Mark}
    (opened : page[start]? = some (.scalar '<')) (reading : Reading page start mark stop)
    (bracket : page[i]? = some (.scalar '<')) (ahead : start < i) (inside : i < stop) :
    (∃ b, mark = some (.block b)) ∨ Hides page i start := by
  have noBracket : ∀ n, page[n]? = some (.scalar '>') → i ≠ n := by
    intro n stands same
    rw [← same, bracket] at stands
    cases stands
  cases reading with
  | comment begins ends =>
    right
    refine .comment ((prefix_lower_iff plain (by decide) _).mp begins) ?_
    intro n behind stands
    have first := ends.2 ⟨behind, List.isPrefixOf_iff_prefix.mpr stands⟩
    omega
  | declaration comment begins ends =>
    right
    rw [prefix_lower_iff plain (by decide)] at comment
    rw [prefix_lower_iff plain (by decide), prefix_lower_iff plain (by decide)] at begins
    refine .declaration comment begins ?_
    intro n behind stands
    have first := ends.2 ⟨behind, stands⟩
    have apart := noBracket n stands
    omega
  | block begins tagEnds closes => exact .inl ⟨_, rfl⟩
  | unopened begins endless => omega
  | @unclosed kind tagStop begins tagEnds endless =>
    right
    have opens : OpensAt page kind start := ⟨opened, (opens_lower_iff plain _ _).mp begins⟩
    refine .unclosed kind (tagStop + 1) opens (isLeast_succ.mpr ⟨tagStop, tagEnds, rfl⟩) inside ?_
    intro contentEnd elementStop element
    obtain ⟨last, closes, -⟩ := (isElement_iff plain opens tagEnds).mp element
    exact endless contentEnd last closes
  | other block => omega

theorem hidden_of_halts {start : Nat} (halts : Halts page start) (i : Nat) :
    Hides page i start := by
  cases halts with
  | comment begins endless =>
    refine .comment ((prefix_lower_iff plain (by decide) _).mp begins) ?_
    intro n behind stands
    exact absurd (List.isPrefixOf_iff_prefix.mpr stands) (endless n behind)
  | declaration comment begins endless =>
    rw [prefix_lower_iff plain (by decide)] at comment
    rw [prefix_lower_iff plain (by decide), prefix_lower_iff plain (by decide)] at begins
    exact .declaration comment begins fun n behind stands => absurd stands (endless n behind)

theorem not_halts {kind : Kind} {i : Nat} (opens : OpensAt page kind i) : ¬ Halts page i := by
  intro halts
  cases halts with
  | comment begins endless => exact not_comment plain opens begins
  | declaration comment begins endless => exact not_declaration plain opens begins

theorem found_or_hidden {kind : Kind} {i contentStart contentEnd stop : Nat}
    (element : IsElement page kind i contentStart contentEnd stop) :
    (∃ b ∈ (scan page).blocks, b.Covers i) ∨ ∃ j < i, Hides page i j := by
  have bracket := element.opens.1
  have complete : 0 ≤ i → (∃ b, .block b ∈ scan page ∧ b.Covers i) ∨ ∃ j < i, Hides page i j := by
    refine scan_induction (motive := fun pos ms => pos ≤ i →
      (∃ b, .block b ∈ ms ∧ b.Covers i) ∨ ∃ j < i, Hides page i j) ?_ ?_ ?_
    · intro pos none reached
      exact absurd bracket (none i reached)
    · intro pos start first halts reached
      rcases Nat.eq_or_lt_of_le (first.2 ⟨reached, bracket⟩) with rfl | ahead
      · exact absurd halts (not_halts plain element.opens)
      · exact .inr ⟨start, ahead, hidden_of_halts plain halts i⟩
    · intro pos start mark last ms first reading later reached
      have behind := first.2 ⟨reached, bracket⟩
      by_cases inside : i < last
      · have outcome : (∃ b, mark = some (.block b)) ∨ ∃ j < i, Hides page i j := by
          rcases Nat.eq_or_lt_of_le behind with rfl | ahead
          · exact .inl (block_of_element plain reading element)
          · exact (covered_or_hidden plain first.1.2 reading bracket ahead inside).imp_right
              fun hides => ⟨start, ahead, hides⟩
        rcases outcome with ⟨b, rfl⟩ | hidden
        · obtain ⟨_, _, _, _, _, startEq, _, stopEq, lastEq⟩ := reading.of_block rfl
          have covers : b.Covers i := ⟨startEq ▸ behind, by omega⟩
          exact .inl ⟨b, List.mem_append_left _ (by simp), covers⟩
        · exact .inr hidden
      · rcases later (Nat.le_of_not_lt inside) with ⟨b, member, covers⟩ | hidden
        · exact .inl ⟨b, List.mem_append_right _ member, covers⟩
        · exact .inr hidden
  rcases complete (Nat.zero_le i) with ⟨b, member, covers⟩ | hidden
  · exact .inl ⟨b, Marks.mem_blocks.mpr member, covers⟩
  · exact .inr hidden

end Plain

/-- In a page without U+0130 the blocks of a scan are complete elements, and each complete element
    begins inside of a block or behind something that hides it. -/
theorem scan_finds_elements {page : Text} (plain : Sym.dottedI ∉ page) :
    (∀ b ∈ (scan page).blocks,
      IsElement page b.kind b.start b.contentStart b.contentEnd b.stop) ∧
    ∀ kind i contentStart contentEnd stop,
      IsElement page kind i contentStart contentEnd stop →
        (∃ b ∈ (scan page).blocks, b.Covers i) ∨ ∃ j < i, Hides page i j :=
  ⟨fun _ member => isElement_of_mem plain member,
    fun _ _ _ _ _ element => found_or_hidden plain element⟩

/-- A page in which a comment hides one style element and leaves the next, in capitals, alone. -/
def commentedStyle : Text := "<!--<style>a</style>--><STYLE>b</sTyle >"

theorem scan_finds_elements_of_commentedStyle :
    Sym.dottedI ∉ commentedStyle ∧ (scan commentedStyle).blocks.map Block.start = [23] ∧
    (∀ b ∈ (scan commentedStyle).blocks,
      IsElement commentedStyle b.kind b.start b.contentStart b.contentEnd b.stop) ∧
    ∀ kind i contentStart contentEnd stop,
      IsElement commentedStyle kind i contentStart contentEnd stop →
        (∃ b ∈ (scan commentedStyle).blocks, b.Covers i) ∨ ∃ j < i, Hides commentedStyle i j :=
  ⟨by decide, by decide +kernel, scan_finds_elements (by decide)⟩

end Markup

end Unbundle
