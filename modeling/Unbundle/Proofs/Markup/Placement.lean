import Mathlib.Data.List.Pairwise
import Unbundle.Proofs.Markup.Reading

namespace Unbundle

structure Block.WellFormed (page : Text) (b : Block) : Prop where
  start_lt : b.start < b.contentStart
  content_le : b.contentStart ≤ b.contentEnd
  content_lt : b.contentEnd < b.stop
  stop_le : b.stop ≤ page.length
  opened : page[b.start]? = some (.scalar '<')
  tagEnded : page[b.contentStart - 1]? = some (.scalar '>')
  closed : page[b.stop - 1]? = some (.scalar '>')

theorem Block.WellFormed.start_lt_stop {page : Text} {b : Block} (formed : b.WellFormed page) :
    b.start < b.stop :=
  formed.start_lt.trans (formed.content_le.trans_lt formed.content_lt)

def Block.Covers (b : Block) (i : Nat) : Prop := b.start ≤ i ∧ i < b.stop

def BehindTag (page : Text) (i : Nat) : Prop :=
  0 < i ∧ i ≤ page.length ∧ page[i - 1]? = some (.scalar '>')

namespace Mark

def tag? : Mark → Option Nat
  | .headClose n | .bodyOpen n | .bodyClose n | .htmlClose n => some n
  | _ => none

def Fits (page : Text) : Mark → Prop
  | .doctype n | .htmlOpen n => BehindTag page n
  | .headClose n | .bodyOpen n | .bodyClose n | .htmlClose n => page[n]? = some (.scalar '<')
  | .block b => b.WellFormed page
  | .unclosed _ => True

/-- The mark keeps behind a position. The end of an `<html>` tag, which is read without being
    passed over, is bound to nothing. -/
def From (pos : Nat) : Mark → Prop
  | .doctype n | .headClose n | .bodyOpen n | .bodyClose n | .htmlClose n => pos ≤ n
  | .block b => pos ≤ b.start
  | .htmlOpen _ | .unclosed _ => True

def UpTo (pos : Nat) : Mark → Prop
  | .doctype n => n ≤ pos
  | .headClose n | .bodyOpen n | .bodyClose n | .htmlClose n => n < pos
  | .block b => b.stop ≤ pos
  | .htmlOpen _ | .unclosed _ => True

def Precedes (a b : Mark) : Prop := ∃ pos, a.UpTo pos ∧ b.From pos

theorem From.mono {m : Mark} {p q : Nat} (later : m.From q) (bound : p ≤ q) : m.From p := by
  cases m <;> simp only [From] at later ⊢ <;> omega

theorem UpTo.mono {m : Mark} {p q : Nat} (earlier : m.UpTo p) (bound : p ≤ q) : m.UpTo q := by
  cases m <;> simp only [UpTo] at earlier ⊢ <;> omega

end Mark

namespace Marks

theorem mem_of_first? {α : Type} {ms : Marks} {view : Mark → Option α} {x : α}
    (found : ms.first? view = some x) : ∃ m ∈ ms, view m = some x :=
  List.exists_of_findSome?_eq_some found

theorem mem_of_last? {α : Type} {ms : Marks} {view : Mark → Option α} {x : α}
    (found : ms.last? view = some x) : ∃ m ∈ ms, view m = some x := by
  obtain ⟨m, member, seen⟩ := List.exists_of_findSome?_eq_some found
  exact ⟨m, List.mem_reverse.mp member, seen⟩

theorem mem_blocks {ms : Marks} {b : Block} : b ∈ ms.blocks ↔ .block b ∈ ms := by
  constructor
  · intro member
    obtain ⟨m, found, seen⟩ := List.mem_filterMap.mp member
    cases m <;> cases seen
    exact found
  · intro member
    exact List.mem_filterMap.mpr ⟨.block b, member, rfl⟩

/-- Some tag of the page is marked at this position as a place for a reference. -/
def MarksTag (ms : Marks) (i : Nat) : Prop :=
  ms.headClose? = some i ∨ ms.bodyOpen? = some i ∨ ms.bodyClose? = some i ∨ ms.htmlClose? = some i

theorem MarksTag.mem {ms : Marks} {i : Nat} (marked : ms.MarksTag i) :
    ∃ m ∈ ms, m.tag? = some i := by
  rcases marked with found | found | found | found
  · obtain ⟨m, member, seen⟩ := mem_of_first? found
    exact ⟨m, member, by cases m <;> cases seen; rfl⟩
  · obtain ⟨m, member, seen⟩ := mem_of_first? found
    exact ⟨m, member, by cases m <;> cases seen; rfl⟩
  · obtain ⟨m, member, seen⟩ := mem_of_last? found
    exact ⟨m, member, by cases m <;> cases seen; rfl⟩
  · obtain ⟨m, member, seen⟩ := mem_of_last? found
    exact ⟨m, member, by cases m <;> cases seen; rfl⟩

structure WellFormed (page : Text) (ms : Marks) : Prop where
  blocks : ∀ b ∈ ms.blocks, b.WellFormed page
  ordered : ms.blocks.Pairwise fun a b => a.stop ≤ b.start
  tags : ∀ i, ms.MarksTag i → page[i]? = some (.scalar '<') ∧ ∀ b ∈ ms.blocks, ¬ b.Covers i
  tagEnds : ∀ i, ms.htmlOpenEnd? = some i ∨ ms.doctypeEnd? = some i → BehindTag page i
  doctype : ∀ i, ms.doctypeEnd? = some i → ∀ b ∈ ms.blocks, ¬ (b.start < i ∧ i < b.stop)

end Marks

namespace Markup

open Cursor (within)

variable {page : Text}

theorem position_lt {i : Nat} {s : Sym} (stands : page[i]? = some s) : i < page.length :=
  (List.getElem?_eq_some_iff.mp stands).1

theorem behindTag_of {i : Nat} (stands : page[i]? = some (.scalar '>')) : BehindTag page (i + 1) :=
  ⟨Nat.succ_pos i, position_lt stands, stands⟩

theorem prefix_bound {needle : Text} {i : Nat} (begins : needle.isPrefixOf (page.drop i))
    (nonempty : needle ≠ []) : i + needle.length ≤ page.length := by
  have bound := (List.isPrefixOf_iff_prefix.mp begins).length_le
  have positive := List.length_pos_iff.mpr nonempty
  rw [List.length_drop] at bound
  omega

theorem Reading.advances {start stop : Nat} {mark : Option Mark}
    (opened : page[start]? = some (.scalar '<')) (reading : Reading page start mark stop) :
    start < stop ∧ stop ≤ page.length := by
  have within_page := position_lt opened
  cases reading with
  | comment begins ends =>
    have bound := prefix_bound ends.1.2 (by decide)
    have behind := ends.1.1
    simp only [List.length_map, String.length_toList] at bound
    exact ⟨by omega, bound⟩
  | declaration comment begins ends =>
    exact ⟨Nat.lt_succ_of_le ends.1.1, position_lt ends.1.2⟩
  | block begins tagEnds closes =>
    have tag := tagEnds.1.1
    have closing := closes.begins.1.1
    have last := closes.ends.1.1
    exact ⟨by omega, position_lt closes.ends.1.2⟩
  | unopened begins endless => exact ⟨Nat.lt_succ_self start, within_page⟩
  | unclosed begins tagEnds endless =>
    exact ⟨Nat.lt_succ_of_lt tagEnds.1.1, position_lt tagEnds.1.2.1⟩
  | other block => exact ⟨Nat.lt_succ_self start, within_page⟩

theorem landmark_cases {start : Nat} {mark : Mark}
    (found : (within page start).landmark? = some mark) :
    (∃ i, EndsTag page start i ∧ mark = .htmlOpen (i + 1)) ∨ mark.tag? = some start := by
  unfold Cursor.landmark? at found
  split at found
  · obtain ⟨n, tag, rfl⟩ := Option.map_eq_some_iff.mp found
    simp only [within, List.drop_drop] at tag
    have ends := (tagEnd_isLeast_endsTag tag).1
    refine .inl ⟨start + 1 + n, ends, ?_⟩
    rw [show start + 1 + n + 1 = start + n + 2 by omega]
    rfl
  · right
    repeat' split at found
    all_goals (cases found; try rfl)

theorem Reading.of_block {start stop : Nat} {mark : Option Mark} {b : Block}
    (reading : Reading page start mark stop) (found : mark = some (.block b)) :
    ∃ tagStop last, namesTag b.kind.name (page.lower.drop (start + 1)) ∧
      IsLeast {i | EndsTag page start i} tagStop ∧
      ClosesBehind page b.kind tagStop b.contentEnd last ∧
      b.start = start ∧ b.contentStart = tagStop + 1 ∧ b.stop = last + 1 ∧ stop = last + 1 := by
  cases reading with
  | comment begins ends => cases found
  | declaration comment begins ends => split at found <;> cases found
  | block begins tagEnds closes =>
    cases found
    exact ⟨_, _, begins, tagEnds, closes, rfl, rfl, rfl, rfl⟩
  | unopened begins endless => cases found
  | unclosed begins tagEnds endless => cases found
  | other block =>
    rcases landmark_cases found with ⟨i, ends, same⟩ | tag
    · cases same
    · cases tag

theorem Reading.placed {start stop : Nat} {mark : Option Mark} {m : Mark}
    (opened : page[start]? = some (.scalar '<')) (reading : Reading page start mark stop)
    (found : mark = some m) : m.Fits page ∧ m.From start ∧ m.UpTo stop := by
  cases reading with
  | comment begins ends => cases found
  | declaration comment begins ends =>
    split at found
    · cases found
      exact ⟨behindTag_of ends.1.2, Nat.le_succ_of_le ends.1.1, Nat.le_refl _⟩
    · cases found
  | block begins tagEnds closes =>
    cases found
    refine ⟨?_, Nat.le_refl _, Nat.le_refl _⟩
    exact {
      start_lt := Nat.lt_succ_of_lt tagEnds.1.1
      content_le := closes.begins.1.1
      content_lt := Nat.lt_succ_of_le closes.ends.1.1
      stop_le := position_lt closes.ends.1.2
      opened := opened
      tagEnded := tagEnds.1.2.1
      closed := closes.ends.1.2 }
  | unopened begins endless => cases found; exact ⟨trivial, trivial, trivial⟩
  | unclosed begins tagEnds endless => cases found; exact ⟨trivial, trivial, trivial⟩
  | other block =>
    rcases landmark_cases found with ⟨i, ends, rfl⟩ | tag
    · exact ⟨behindTag_of ends.2.1, trivial, trivial⟩
    · cases m <;> cases tag
      all_goals exact ⟨opened, Nat.le_refl start, Nat.lt_succ_self start⟩

theorem scan_placed (page : Text) :
    (∀ m ∈ scan page, m.Fits page) ∧ (scan page).Pairwise Mark.Precedes := by
  have placed : (∀ m ∈ scan page, m.Fits page ∧ m.From 0) ∧
      (scan page).Pairwise Mark.Precedes := by
    refine scan_induction (motive := fun pos ms =>
      (∀ m ∈ ms, m.Fits page ∧ m.From pos) ∧ ms.Pairwise Mark.Precedes) ?_ ?_ ?_
    · intro pos _
      simp
    · intro pos start _ _
      simp
    · intro pos start mark stop ms first reading ⟨later, parted⟩
      have opened := first.1.2
      have ahead := (reading.advances opened).1
      have kept : ∀ m ∈ ms, m.Fits page ∧ m.From pos := by
        intro m member
        obtain ⟨fits, from_stop⟩ := later m member
        exact ⟨fits, from_stop.mono (Nat.le_trans first.1.1 (Nat.le_of_lt ahead))⟩
      cases mark with
      | none => exact ⟨kept, parted⟩
      | some m =>
        obtain ⟨fits, from_start, upTo⟩ := reading.placed opened rfl
        refine ⟨?_, List.pairwise_cons.mpr ⟨?_, parted⟩⟩
        · intro m' member
          rcases List.mem_cons.mp member with rfl | member
          · exact ⟨fits, from_start.mono first.1.1⟩
          · exact kept m' member
        · intro m' member
          exact ⟨stop, upTo, (later m' member).2⟩
  exact ⟨fun m member => (placed.1 m member).1, placed.2⟩

theorem parted_of_mem {ms : Marks} (parted : ms.Pairwise Mark.Precedes) {a b : Mark}
    (left : a ∈ ms) (right : b ∈ ms) (different : a ≠ b) : a.Precedes b ∨ b.Precedes a := by
  have symmetric : Std.Symm fun a b : Mark => a.Precedes b ∨ b.Precedes a :=
    ⟨fun _ _ either => either.symm⟩
  have either : ms.Pairwise fun a b => a.Precedes b ∨ b.Precedes a := parted.imp Or.inl
  exact either.forall left right different

theorem scan_marks_wellFormed (page : Text) : (scan page).WellFormed page := by
  obtain ⟨fits, parted⟩ := scan_placed page
  constructor
  · intro b member
    exact fits _ (Marks.mem_blocks.mp member)
  · apply List.pairwise_filterMap.mpr
    apply parted.imp
    intro m n ⟨pos, upTo, behind⟩ a left b right
    cases m <;> cases left
    cases n <;> cases right
    exact Nat.le_trans upTo behind
  · intro i marked
    obtain ⟨m, member, seen⟩ := marked.mem
    constructor
    · have stands := fits m member
      cases m <;> cases seen
      all_goals exact stands
    · intro b block ⟨behind, before⟩
      have different : m ≠ .block b := by rintro rfl; cases seen
      rcases parted_of_mem parted member (Marks.mem_blocks.mp block) different with
        ⟨pos, upTo, later⟩ | ⟨pos, upTo, later⟩
      all_goals
        cases m <;> cases seen
        all_goals
          simp only [Mark.UpTo, Mark.From] at upTo later
          omega
  · intro i marked
    rcases marked with found | found
    · obtain ⟨m, member, seen⟩ := Marks.mem_of_first? found
      have behind := fits m member
      cases m <;> cases seen
      exact behind
    · obtain ⟨m, member, seen⟩ := Marks.mem_of_first? found
      have behind := fits m member
      cases m <;> cases seen
      exact behind
  · intro i found b block ⟨behind, before⟩
    obtain ⟨m, member, seen⟩ := Marks.mem_of_first? found
    have different : m ≠ .block b := by rintro rfl; cases seen
    rcases parted_of_mem parted member (Marks.mem_blocks.mp block) different with
      ⟨pos, upTo, later⟩ | ⟨pos, upTo, later⟩
    all_goals
      cases m <;> cases seen
      simp only [Mark.UpTo, Mark.From] at upTo later
      omega

theorem run_positions {c : Cursor} {visited : List Cursor} {ms : Marks}
    (run : Cursor.Run c visited ms) (pos : Nat) (here : c = within page pos)
    (bound : pos ≤ page.length) :
    visited.Pairwise (fun c d => c.pos < d.pos) ∧
      ∀ d ∈ visited, pos ≤ d.pos ∧ d.pos ≤ page.length := by
  induction run generalizing pos with
  | done last =>
    subst here
    simp [bound]
  | step next rest ih =>
    subst here
    obtain ⟨start, stop, first, reading, rfl⟩ := next_within next
    have ahead := reading.advances first.1.2
    have reached := first.1.1
    obtain ⟨grow, visitedBounds⟩ := ih stop rfl ahead.2
    constructor
    · refine List.pairwise_cons.mpr ⟨?_, grow⟩
      intro d member
      have behind := (visitedBounds d member).1
      simp only [Cursor.within_pos]
      omega
    · intro d member
      rcases List.mem_cons.mp member with rfl | member
      · exact ⟨Nat.le_refl pos, bound⟩
      · have bounds := visitedBounds d member
        omega

/-- A scan is a finite run of iterations in which the position grows each time, and its marks are
    well formed, whatever symbols the page holds. -/
theorem scan_terminates_wellFormed (page : Text) :
    (∃ visited, Cursor.Run (Cursor.ofText page) visited (scan page) ∧
      visited.Pairwise (fun c d => c.pos < d.pos) ∧ ∀ c ∈ visited, c.pos ≤ page.length) ∧
    (scan page).WellFormed page := by
  obtain ⟨visited, run⟩ := Cursor.run_marks (within page 0)
  obtain ⟨grow, bounds⟩ := run_positions run 0 rfl (Nat.zero_le page.length)
  exact ⟨⟨visited, run, grow, fun c member => (bounds c member).2⟩, scan_marks_wellFormed page⟩

end Markup

end Unbundle
