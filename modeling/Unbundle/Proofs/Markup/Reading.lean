import Unbundle.Markup.Scan
import Unbundle.Proofs.Markup.Search

namespace Unbundle.Markup

namespace Cursor

def within (page : Text) (pos : Nat) : Cursor := ⟨pos, page.drop pos, page.lower.drop pos⟩

@[simp]
theorem within_pos (page : Text) (pos : Nat) : (within page pos).pos = pos := rfl

@[simp]
theorem advance_within (page : Text) (pos n : Nat) :
    (within page pos).advance n = within page (pos + n) := by
  simp [within, advance]

def next? (c : Cursor) : Option (Option Mark × Cursor) :=
  c.toTag?.bind fun tag => tag.readTag.map fun (mark, n) => (mark, tag.advance (n + 1))

/-- A run of iterations to the last one, with the cursors it stands at and the marks it finds. -/
inductive Run : Cursor → List Cursor → Marks → Prop
  | done {c : Cursor} (last : c.next? = none) : Run c [c] []
  | step {c d : Cursor} {mark : Option Mark} {visited : List Cursor} {ms : Marks}
      (next : c.next? = some (mark, d)) (rest : Run d visited ms) :
      Run c (c :: visited) (mark.toList ++ ms)

theorem run_marks (c : Cursor) : ∃ visited, Run c visited c.marks := by
  fun_induction marks c with
  | case1 c none => exact ⟨[c], .done (by simp [next?, none])⟩
  | case2 c tag next none => exact ⟨[c], .done (by simp [next?, next, none])⟩
  | case3 c tag next mark n read ih =>
    obtain ⟨visited, rest⟩ := ih
    exact ⟨c :: visited, .step (by simp [next?, next, read]) rest⟩

end Cursor

open Cursor (within)

theorem blockKind_named {page : Text} {start : Nat} {kind : Kind}
    (found : (within page start).blockKind? = some kind) :
    namesTag kind.name (page.lower.drop (start + 1)) := by
  simp only [Cursor.blockKind?, Cursor.opens, within, List.drop_drop] at found
  split at found
  · rename_i style
    cases found
    exact style
  · split at found
    · rename_i script
      cases found
      exact script
    · cases found

theorem blockKind_none {page : Text} {start : Nat}
    (missing : (within page start).blockKind? = none) (kind : Kind) :
    ¬ namesTag kind.name (page.lower.drop (start + 1)) := by
  simp only [Cursor.blockKind?, Cursor.opens, within, List.drop_drop] at missing
  split at missing
  · cases missing
  · rename_i notStyle
    split at missing
    · cases missing
    · rename_i notScript
      cases kind
      · exact notStyle
      · exact notScript

/-- Where the element with the opening tag that ends at `tagStop` begins to close, and where it is
    closed. -/
structure ClosesBehind (page : Text) (kind : Kind) (tagStop closing stop : Nat) : Prop where
  begins : IsLeast {i | tagStop < i ∧ Markup.closes kind.name (page.lower.drop i)} closing
  ends : IsLeast {i | closing ≤ i ∧ page[i]? = some (.scalar '>')} stop

/-- What a scan reads at a `<` of the page, and where it goes on. -/
inductive Reading (page : Text) (start : Nat) : Option Mark → Nat → Prop
  | comment {n : Nat} (begins : ("<!--" : Text).isPrefixOf (page.lower.drop start))
      (ends : IsLeast {i | start + 4 ≤ i ∧ ("-->" : Text).isPrefixOf (page.drop i)} n) :
      Reading page start none (n + 3)
  | declaration {n : Nat} (comment : ¬ ("<!--" : Text).isPrefixOf (page.lower.drop start))
      (begins : ("<!" : Text).isPrefixOf (page.lower.drop start) ∨
        ("<?" : Text).isPrefixOf (page.lower.drop start))
      (ends : IsLeast {i | start ≤ i ∧ page[i]? = some (.scalar '>')} n) :
      Reading page start
        (if namesTag "doctype" (page.lower.drop (start + 2)) then some (.doctype (n + 1)) else none)
        (n + 1)
  | block {kind : Kind} {tagStop closing stop : Nat} {attributes : Attributes}
      (begins : namesTag kind.name (page.lower.drop (start + 1)))
      (tagEnds : IsLeast {i | EndsTag page start i} tagStop)
      (closes : ClosesBehind page kind tagStop closing stop) :
      Reading page start (some (.block ⟨kind, start, tagStop + 1, closing, stop + 1, attributes⟩))
        (stop + 1)
  | unopened {kind : Kind} (begins : namesTag kind.name (page.lower.drop (start + 1)))
      (endless : ∀ i, ¬ EndsTag page start i) :
      Reading page start (some (.unclosed kind)) (start + 1)
  | unclosed {kind : Kind} {tagStop : Nat}
      (begins : namesTag kind.name (page.lower.drop (start + 1)))
      (tagEnds : IsLeast {i | EndsTag page start i} tagStop)
      (endless : ∀ closing stop, ¬ ClosesBehind page kind tagStop closing stop) :
      Reading page start (some (.unclosed kind)) (tagStop + 1)
  | other (block : ∀ kind : Kind, ¬ namesTag kind.name (page.lower.drop (start + 1))) :
      Reading page start (within page start).landmark? (start + 1)

/-- A comment or declaration without an end, at which the scan ends. -/
inductive Halts (page : Text) (start : Nat) : Prop
  | comment (begins : ("<!--" : Text).isPrefixOf (page.lower.drop start))
      (endless : ∀ i, start + 4 ≤ i → ¬ ("-->" : Text).isPrefixOf (page.drop i))
  | declaration (comment : ¬ ("<!--" : Text).isPrefixOf (page.lower.drop start))
      (begins : ("<!" : Text).isPrefixOf (page.lower.drop start) ∨
        ("<?" : Text).isPrefixOf (page.lower.drop start))
      (endless : ∀ i, start ≤ i → page[i]? ≠ some (.scalar '>'))

theorem readBlock_reading {page : Text} {start : Nat} {kind : Kind}
    (begins : namesTag kind.name (page.lower.drop (start + 1))) :
    Reading page start (some ((within page start).readBlock kind).1)
      (start + ((within page start).readBlock kind).2 + 1) := by
  simp only [Cursor.readBlock, within, List.drop_drop]
  cases tag : tagEnd? none (page.drop (start + 1)) with
  | none => exact .unopened begins (tagEnd_never_endsTag tag)
  | some n =>
    have tagEnds : IsLeast {i | EndsTag page start i} (start + (n + 1)) := by
      rw [show start + (n + 1) = start + 1 + n by omega]
      exact tagEnd_isLeast_endsTag tag
    dsimp only
    cases closing : closing? kind.name (page.lower.drop (start + (n + 2))) with
    | none =>
      refine .unclosed begins tagEnds ?_
      intro closing' stop closes
      exact (closing_searches kind.name).never_from closing _ closes.begins.1.1 closes.begins.1.2
    | some k =>
      have first := (closing_searches kind.name).least_from closing
      rw [show start + (n + 2) + k = start + (n + 2 + k) by omega] at first
      dsimp only
      cases last : (page.drop (start + (n + 2 + k))).findIdx? (· == .scalar '>') with
      | none =>
        refine .unclosed begins tagEnds ?_
        intro closing' stop closes
        have same : closing' = start + (n + 2 + k) := closes.begins.unique first
        exact findIdx_never last _ (same ▸ closes.ends.1.1) closes.ends.1.2
      | some m =>
        have ends := findIdx_least last
        simp only [Nat.add_assoc] at first ends ⊢
        exact .block begins tagEnds ⟨first, ends⟩

theorem readTag_reading {page : Text} {start n : Nat} {mark : Option Mark}
    (read : (within page start).readTag = some (mark, n)) :
    Reading page start mark (start + n + 1) := by
  unfold Cursor.readTag at read
  split at read
  · rename_i comment
    obtain ⟨m, found, same⟩ := Option.map_eq_some_iff.mp read
    simp only [Prod.mk.injEq] at same
    obtain ⟨rfl, rfl⟩ := same
    simp only [within, List.drop_drop] at found
    have ends := (find_searches (by decide)).least_from found
    rw [show start + (m + 6) + 1 = start + 4 + m + 3 by omega]
    exact .comment comment ends
  · rename_i comment
    split at read
    · rename_i declaration
      obtain ⟨m, found, same⟩ := Option.map_eq_some_iff.mp read
      simp only [Prod.mk.injEq] at same
      obtain ⟨rfl, rfl⟩ := same
      simp only [within, List.drop_drop]
      exact .declaration comment (Bool.or_eq_true_iff.mp declaration) (findIdx_least found)
    · split at read
      · rename_i kind found
        simp only [Option.some.injEq, Prod.mk.injEq] at read
        obtain ⟨rfl, rfl⟩ := read
        exact readBlock_reading (blockKind_named found)
      · rename_i missing
        simp only [Option.some.injEq, Prod.mk.injEq] at read
        obtain ⟨rfl, rfl⟩ := read
        exact .other (blockKind_none missing)

theorem readTag_halts {page : Text} {start : Nat} (stopped : (within page start).readTag = none) :
    Halts page start := by
  unfold Cursor.readTag at stopped
  split at stopped
  · rename_i comment
    have missing := Option.map_eq_none_iff.mp stopped
    simp only [within, List.drop_drop] at missing
    exact .comment comment ((find_searches (by decide)).never_from missing)
  · rename_i comment
    split at stopped
    · rename_i declaration
      have missing := Option.map_eq_none_iff.mp stopped
      exact .declaration comment (Bool.or_eq_true_iff.mp declaration) (findIdx_never missing)
    · split at stopped <;> cases stopped

def FirstTag (page : Text) (pos start : Nat) : Prop :=
  IsLeast {i | pos ≤ i ∧ page[i]? = some (.scalar '<')} start

theorem toTag_within {page : Text} {pos : Nat} {tag : Cursor}
    (found : (within page pos).toTag? = some tag) :
    ∃ start, FirstTag page pos start ∧ tag = within page start := by
  obtain ⟨n, at_n, rfl⟩ := Option.map_eq_some_iff.mp found
  exact ⟨pos + n, findIdx_least at_n, Cursor.advance_within page pos n⟩

theorem toTag_none {page : Text} {pos : Nat} (missing : (within page pos).toTag? = none) :
    ∀ i, pos ≤ i → page[i]? ≠ some (.scalar '<') :=
  findIdx_never (Option.map_eq_none_iff.mp missing)

theorem next_within {page : Text} {pos : Nat} {mark : Option Mark} {c : Cursor}
    (next : (within page pos).next? = some (mark, c)) :
    ∃ start stop, FirstTag page pos start ∧ Reading page start mark stop ∧
      c = within page stop := by
  obtain ⟨tag, found, read⟩ := Option.bind_eq_some_iff.mp next
  obtain ⟨start, first, rfl⟩ := toTag_within found
  obtain ⟨⟨mark', n⟩, tagRead, same⟩ := Option.map_eq_some_iff.mp read
  simp only [Prod.mk.injEq, Cursor.advance_within] at same
  obtain ⟨rfl, rfl⟩ := same
  exact ⟨start, start + n + 1, first, readTag_reading tagRead, rfl⟩

theorem next_none {page : Text} {pos : Nat} (last : (within page pos).next? = none) :
    (∀ i, pos ≤ i → page[i]? ≠ some (.scalar '<')) ∨
      ∃ start, FirstTag page pos start ∧ Halts page start := by
  cases found : (within page pos).toTag? with
  | none => exact .inl (toTag_none found)
  | some tag =>
    obtain ⟨start, first, rfl⟩ := toTag_within found
    simp only [Cursor.next?, found, Option.bind_some] at last
    exact .inr ⟨start, first, readTag_halts (Option.map_eq_none_iff.mp last)⟩

/-- What holds where a scan ends, and is kept from one iteration back to the one before, holds of
    the marks from any position on. -/
theorem marks_induction {page : Text} {motive : Nat → Marks → Prop}
    (blank : ∀ pos, (∀ i, pos ≤ i → page[i]? ≠ some (.scalar '<')) → motive pos [])
    (halted : ∀ pos start, FirstTag page pos start → Halts page start → motive pos [])
    (step : ∀ pos start mark stop ms, FirstTag page pos start → Reading page start mark stop →
      motive stop ms → motive pos (mark.toList ++ ms)) (pos : Nat) :
    motive pos (within page pos).marks := by
  have ran : ∀ {c visited ms}, Cursor.Run c visited ms →
      ∀ pos, c = within page pos → motive pos ms := by
    intro c visited ms run
    induction run with
    | done last =>
      intro pos here
      subst here
      rcases next_none last with none | ⟨start, first, halts⟩
      · exact blank pos none
      · exact halted pos start first halts
    | step next rest ih =>
      intro pos here
      subst here
      obtain ⟨start, stop, first, reading, rfl⟩ := next_within next
      exact step pos start _ stop _ first reading (ih stop rfl)
  obtain ⟨visited, run⟩ := Cursor.run_marks (within page pos)
  exact ran run pos rfl

theorem scan_induction {page : Text} {motive : Nat → Marks → Prop}
    (blank : ∀ pos, (∀ i, pos ≤ i → page[i]? ≠ some (.scalar '<')) → motive pos [])
    (halted : ∀ pos start, FirstTag page pos start → Halts page start → motive pos [])
    (step : ∀ pos start mark stop ms, FirstTag page pos start → Reading page start mark stop →
      motive stop ms → motive pos (mark.toList ++ ms)) : motive 0 (scan page) :=
  marks_induction blank halted step 0

end Unbundle.Markup
