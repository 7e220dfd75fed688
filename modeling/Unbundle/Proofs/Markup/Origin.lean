import Unbundle.Proofs.Markup.Element

namespace Unbundle.Markup

open Cursor (within)

variable {page : Text}

theorem next_read {pos : Nat} {mark : Option Mark} {c : Cursor}
    (next : (within page pos).next? = some (mark, c)) :
    ∃ start n, FirstTag page pos start ∧ (within page start).readTag = some (mark, n) ∧
      c = within page (start + n + 1) := by
  obtain ⟨tag, found, read⟩ := Option.bind_eq_some_iff.mp next
  obtain ⟨start, first, rfl⟩ := toTag_within found
  obtain ⟨⟨mark', n⟩, tagRead, same⟩ := Option.map_eq_some_iff.mp read
  simp only [Prod.mk.injEq, Cursor.advance_within] at same
  obtain ⟨rfl, rfl⟩ := same
  exact ⟨start, n, first, tagRead, rfl⟩

def ReadAt (page : Text) (start : Nat) (m : Mark) : Prop :=
  page[start]? = some (.scalar '<') ∧ ∃ n, (within page start).readTag = some (some m, n)

theorem run_readAt {c : Cursor} {visited : List Cursor} {ms : Marks} (run : Cursor.Run c visited ms)
    (pos : Nat) (here : c = within page pos) : ∀ m ∈ ms, ∃ start, ReadAt page start m := by
  induction run generalizing pos with
  | done last => simp
  | step next rest ih =>
    subst here
    obtain ⟨start, n, first, read, rfl⟩ := next_read next
    intro m member
    rcases List.mem_append.mp member with here | later
    · rw [Option.mem_toList.mp here] at read
      exact ⟨start, first.1.2, n, read⟩
    · exact ih _ rfl m later

theorem scan_readAt {m : Mark} (member : m ∈ scan page) : ∃ start, ReadAt page start m := by
  obtain ⟨visited, run⟩ := Cursor.run_marks (within page 0)
  exact run_readAt run 0 rfl m member

theorem readBlock_cases (c : Cursor) (kind : Kind) :
    (c.readBlock kind).1 = .unclosed kind ∨
      ∃ b n, (c.readBlock kind).1 = .block b ∧ b.start = c.pos ∧ b.contentStart = c.pos + n ∧
        b.attributes = .ofTag (c.rest.take n) := by
  unfold Cursor.readBlock
  split
  · exact .inl rfl
  · rename_i n _
    dsimp only
    split
    · exact .inl rfl
    · split
      · exact .inl rfl
      · exact .inr ⟨_, n + 2, rfl, rfl, rfl, rfl⟩

theorem readTag_cases {c : Cursor} {mark : Option Mark} {n : Nat}
    (read : c.readTag = some (mark, n)) :
    mark = none ∨ (∃ i, mark = some (.doctype i)) ∨ (∃ kind, mark = some (c.readBlock kind).1) ∨
      mark = c.landmark? := by
  unfold Cursor.readTag at read
  split at read
  · obtain ⟨i, _, same⟩ := Option.map_eq_some_iff.mp read
    cases same
    exact .inl rfl
  · split at read
    · obtain ⟨i, _, same⟩ := Option.map_eq_some_iff.mp read
      cases same
      split
      · exact .inr (.inl ⟨_, rfl⟩)
      · exact .inl rfl
    · split at read
      · cases read
        exact .inr (.inr (.inl ⟨_, rfl⟩))
      · cases read
        exact .inr (.inr (.inr rfl))

theorem landmark_not_block {c : Cursor} {b : Block} : c.landmark? ≠ some (.block b) := by
  unfold Cursor.landmark?
  intro found
  split at found
  · obtain ⟨n, _, same⟩ := Option.map_eq_some_iff.mp found
    cases same
  · repeat' split at found
    all_goals cases found

theorem block_attributes {b : Block} (member : b ∈ (scan page).blocks) :
    b.attributes = .ofTag (page.slice b.start b.contentStart) := by
  obtain ⟨start, _, n, read⟩ := scan_readAt (Marks.mem_blocks.mp member)
  rcases readTag_cases read with none | ⟨i, doctype⟩ | ⟨kind, block⟩ | landmark
  · cases none
  · cases doctype
  · rcases readBlock_cases (within page start) kind with unclosed | ⟨b', i, whole, first, ends, tag⟩
    · rw [unclosed] at block
      cases block
    · rw [whole] at block
      cases block
      rw [tag, first, ends, Text.slice, Nat.add_sub_cancel_left]
      rfl
  · exact absurd landmark.symm landmark_not_block

theorem landmark_of_tag {c : Cursor} {m : Mark} {n i : Nat} (read : c.readTag = some (some m, n))
    (tag : m.tag? = some i) : c.landmark? = some m := by
  rcases readTag_cases read with none | ⟨j, doctype⟩ | ⟨kind, block⟩ | landmark
  · cases none
  · cases doctype
    cases tag
  · rcases readBlock_cases c kind with unclosed | ⟨b, _, whole, -⟩
    · rw [unclosed] at block
      cases block
      cases tag
    · rw [whole] at block
      cases block
      cases tag
  · exact landmark.symm

theorem scan_landmark {m : Mark} (member : m ∈ scan page) {i : Nat} (tag : m.tag? = some i) :
    ∃ start, (within page start).landmark? = some m := by
  obtain ⟨start, _, n, read⟩ := scan_readAt member
  exact ⟨start, landmark_of_tag read tag⟩

theorem landmark_closes {c : Cursor} {n : Nat} :
    (c.landmark? = some (.bodyClose n) → n = c.pos ∧ c.closes "body") ∧
      (c.landmark? = some (.htmlClose n) → n = c.pos ∧ c.closes "html") := by
  unfold Cursor.landmark?
  split
  · constructor
    all_goals
      intro found
      obtain ⟨i, _, same⟩ := Option.map_eq_some_iff.mp found
      cases same
  · repeat' split
    all_goals
      constructor
      all_goals
        intro found
        cases found
    · exact ⟨rfl, ‹_›⟩
    · exact ⟨rfl, ‹_›⟩

theorem bodyClose_closes {i : Nat} (marked : (scan page).bodyClose? = some i) :
    closes "body" (page.lower.drop i) := by
  obtain ⟨m, member, seen⟩ := Marks.mem_of_last? marked
  cases m <;> cases seen
  obtain ⟨start, landmark⟩ := scan_landmark member rfl
  obtain ⟨here, closing⟩ := landmark_closes.1 landmark
  rw [here]
  exact closing

theorem htmlClose_closes {i : Nat} (marked : (scan page).htmlClose? = some i) :
    closes "html" (page.lower.drop i) := by
  obtain ⟨m, member, seen⟩ := Marks.mem_of_last? marked
  cases m <;> cases seen
  obtain ⟨start, landmark⟩ := scan_landmark member rfl
  obtain ⟨here, closing⟩ := landmark_closes.2 landmark
  rw [here]
  exact closing

theorem closes_head (plain : Sym.dottedI ∉ page) {name : Text} {first : Sym} {i : Nat}
    (seen : ∀ x ∈ name, x.isOneOf tagChars) (closing : closes name (page.lower.drop i))
    (head : name.head? = some first) : page[i + 2]?.map Sym.asciiLower = some first := by
  rw [closes, Bool.and_eq_true, List.drop_drop, namesTag_lower_iff plain seen] at closing
  obtain ⟨rest, split⟩ := closing.2.1
  have heads := congrArg List.head? split
  rw [List.head?_append, head, List.head?_map, List.head?_drop] at heads
  exact heads.symm

end Unbundle.Markup
