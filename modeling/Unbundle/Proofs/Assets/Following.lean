import Unbundle.Proofs.Assets.Counting
import Unbundle.Proofs.Assets.Staying
import Unbundle.Proofs.Markup.Arriving
import Unbundle.Proofs.Markup.Insertion
import Unbundle.Proofs.Markup.Origin

namespace Unbundle

open Markup

open Cursor (within)

namespace Plan

variable {p : Plan}

/-- What the new page holds from a position of the old one on. -/
def onward (p : Plan) (i : Nat) : Text := p.stretch i (p.page.length + 1)

/-- No removal brings a `<` of the page together with text that it did not stand in front of, so
    that a comment, a declaration, a style or script or the end of a style begins there. -/
structure JoinsNothing (p : Plan) : Prop where
  opens : ∀ i, p.page[i]? = some (.scalar '<') → ¬ p.Deletes i →
    Begins (.scalar '<' :: p.onward (i + 1)) → Begins (p.page.drop i)
  closes : ∀ i, p.page[i]? = some (.scalar '<') → ¬ p.Deletes i →
    ClosesAt (.scalar '<' :: p.onward (i + 1)) .style 0 → ClosesAt p.page .style i

theorem onward_split (p : Plan) {i j : Nat} (first : i ≤ j) (last : j ≤ p.page.length + 1) :
    p.onward i = p.stretch i j ++ p.onward j :=
  (p.stretch_append first last).symm

theorem onward_succ (p : Plan) {i : Nat} (inside : i ≤ p.page.length) :
    p.onward i = p.inserts i ++ ((if p.Deletes i then [] else p.page[i]?.toList) ++
      p.onward (i + 1)) := by
  rw [p.onward_split (Nat.le_succ i) (by omega), stretch_succ, written_eq, List.append_assoc]

end Plan

theorem Markup.link_passes (rest : Text) : Arrives (Kind.style.reference ++ rest) rest := by
  have opened : (Kind.style.reference ++ rest).head? = some (.scalar '<') := rfl
  have plain : ¬ Begins (Kind.style.reference ++ rest) := by
    rintro (bang | query | ⟨kind, opens⟩)
    · have second := Text.getElem?_of_begins (a := 0) bang (x := 1) rfl
      cases second
    · have second := Text.getElem?_of_begins (a := 0) query (x := 1) rfl
      cases second
    · have letter := opens.2.head
      revert letter
      change some (Sym.asciiLower (.scalar 'l')) ≠ _
      decide
  refine .read opened (reach_of_not_begins opened plain) ?_
  exact Arrives.passes (t := Kind.style.reference.drop 1) (by decide) rest

/-- No end of an element of the kind begins in the text. -/
def Markup.NeverCloses (kind : Kind) (t : Text) : Prop :=
  closing? kind.name (t.map Sym.asciiLower) = none

theorem Markup.neverCloses_cons {kind : Kind} {s : Sym} {t : Text}
    (here : ¬ ClosesAt (s :: t) kind 0) (later : NeverCloses kind t) :
    NeverCloses kind (s :: t) := by
  rw [← closes_folded_iff] at here
  unfold NeverCloses at later ⊢
  rw [List.map_cons] at here ⊢
  rw [closing?, if_neg here, later]
  rfl

theorem Markup.neverCloses_append {kind : Kind} {t rest : Text} (quiet : .scalar '<' ∉ t)
    (later : NeverCloses kind rest) : NeverCloses kind (t ++ rest) := by
  induction t with
  | nil => exact later
  | cons s t ih =>
    rw [List.mem_cons, not_or] at quiet
    refine neverCloses_cons ?_ (ih quiet.2)
    intro closes
    exact quiet.1 (Option.some.inj (Text.getElem?_of_begins closes.1 (x := 0) rfl)).symm

theorem Markup.neverCloses_reference (kind : Kind) {rest : Text}
    (later : NeverCloses .style rest) : NeverCloses .style (kind.reference ++ rest) := by
  have closed : Text.Closed (kind.reference.map Sym.asciiLower) := by
    unfold Text.Closed
    cases kind <;> decide
  have itself : closing? Kind.style.name (kind.reference.map Sym.asciiLower) = none := by
    cases kind <;> decide
  unfold NeverCloses at later ⊢
  rw [List.map_append, closing?_append closed, itself, later]
  rfl

namespace Plan

variable {p : Plan}

theorem style_passes (p : Plan) (i : Nat) (rest : Text) :
    Arrives (p.inserted .style i ++ rest) rest := by
  rcases p.inserted_cases .style i with none | ⟨before, behind, parts, front, back⟩
  · rw [none]
    exact .here rest
  · rw [parts, List.append_assoc, List.append_assoc]
    exact (Arrives.passes (Text.not_mem_of_isBlank front (by decide)) _).trans
      ((link_passes _).trans (Arrives.passes (Text.not_mem_of_isBlank back (by decide)) _))

theorem inserts_before {i : Nat} (before : i < p.position .script) :
    p.inserts i = p.inserted .style i := by
  rw [inserts, inserted_of_ne (show p.position .script ≠ i by omega), List.append_nil]

theorem step_passes {i : Nat} (before : i < p.position .script) (inside : i ≤ p.page.length)
    (other : p.Deletes i ∨ p.page[i]? ≠ some (.scalar '<')) :
    Arrives (p.onward i) (p.onward (i + 1)) := by
  rw [p.onward_succ inside, inserts_before before]
  refine (p.style_passes i _).trans (Arrives.passes ?_ _)
  split
  · simp
  · rename_i kept
    intro member
    exact (other.resolve_left kept) (Option.mem_toList.mp member)

theorem gone_passes {i j : Nat} (range : i ≤ j) (before : j ≤ p.position .script)
    (inside : j ≤ p.page.length) (gone : ∀ x, i ≤ x → x < j → p.Deletes x) :
    Arrives (p.onward i) (p.onward j) := by
  induction j, range using Nat.le_induction with
  | base => exact .here _
  | succ j range ih =>
    refine (ih (by omega) (by omega) fun x behind ahead => gone x behind (by omega)).trans ?_
    exact step_passes (by omega) (by omega) (.inl (gone j range (Nat.lt_succ_self j)))

theorem passage_silent {i j : Nat} (before : j ≤ p.position .script)
    (elsewhere : p.chosen .style = [] ∨ p.position .style ≤ i ∨ j ≤ p.position .style) :
    ∀ x, i < x → x < j → p.inserts x = [] := by
  intro x behind ahead
  rw [inserts_before (by omega), inserted]
  refine if_neg ?_
  rintro ⟨chosen, here⟩
  rcases elsewhere with none | early | late
  · exact chosen none
  · omega
  · omega

theorem passage_stretch {i j : Nat} (range : i < j)
    (before : j ≤ p.position .script) (inside : j ≤ p.page.length)
    (spared : ∀ x, i ≤ x → x < j → ¬ p.Deletes x)
    (behind : i < p.position .style → p.position .style < j →
      p.page[p.position .style - 1]? = some (.scalar '>')) :
    p.stretch i j = p.inserted .style i ++ p.page.slice i j ∨
      ∃ k, i < k ∧ k < j ∧ p.page[k - 1]? = some (.scalar '>') ∧
        p.stretch i j = p.page.slice i k ++ Kind.style.reference ++ p.page.slice k j := by
  by_cases within : p.chosen .style ≠ [] ∧ i < p.position .style ∧ p.position .style < j
  · obtain ⟨chosen, later, ahead⟩ := within
    right
    have stands := behind later ahead
    refine ⟨p.position .style, later, ahead, stands, ?_⟩
    have put : p.inserts (p.position .style) = Kind.style.reference := by
      rw [inserts_before (by omega), inserted, if_pos ⟨chosen, rfl⟩,
        Markup.indented_behind_tag (by omega) stands (by omega)]
    rw [← p.stretch_append (Nat.le_of_lt later) (Nat.le_of_lt ahead),
      stretch_put later (fun x first last => spared x first (by omega))
        (passage_silent (by omega) (.inr (.inr (Nat.le_refl _)))),
      stretch_put ahead (fun x first last => spared x (by omega) last)
        (passage_silent before (.inr (.inl (Nat.le_refl _)))),
      put, inserts_before (by omega), inserted_of_ne (show p.position .style ≠ i by omega),
      List.nil_append, List.append_assoc]
  · left
    have elsewhere : p.chosen .style = [] ∨ p.position .style ≤ i ∨ j ≤ p.position .style := by
      by_contra both
      rw [not_or, not_or] at both
      exact within ⟨both.1, by omega, by omega⟩
    rw [stretch_put range spared (passage_silent before elsewhere), inserts_before (by omega)]

/-- A passage is passed over in the new page if it is passed over as a whole in the old one, with or
    without the reference to the styles in it. -/
theorem passage_passes {whole : Text → Prop} {i j : Nat}
    (insert : ∀ front behind, whole (front ++ behind) → Text.Closed front → 1 < front.length →
      behind ≠ [] → whole (front ++ Kind.style.reference ++ behind))
    (reached : ∀ t, whole t → reach (t ++ p.onward j) = some t.length)
    (opened : p.page[i]? = some (.scalar '<')) (range : i < j)
    (before : j ≤ p.position .script) (inside : j ≤ p.page.length)
    (spared : ∀ x, i ≤ x → x < j → ¬ p.Deletes x)
    (behind : i < p.position .style → p.position .style < j →
      p.page[p.position .style - 1]? = some (.scalar '>'))
    (holds : whole (p.page.slice i j)) : Arrives (p.onward i) (p.onward j) := by
  have begins : ∀ k, i < k → (p.page.slice i k).head? = some (.scalar '<') := by
    intro k ahead
    rw [p.page.slice_cons ahead, opened]
    rfl
  rw [p.onward_split (Nat.le_of_lt range) (by omega)]
  rcases passage_stretch range before inside spared behind with plain | ⟨k, later, ahead, last, put⟩
  · rw [plain, List.append_assoc]
    exact (p.style_passes i _).trans (Arrives.whole (begins j range) (reached _ holds))
  · have front := p.page.length_slice (i := i) (j := k) (by omega)
    have rest := p.page.length_slice (i := k) inside
    have long : i + 1 < k := by
      refine Nat.lt_of_le_of_ne later ?_
      rintro rfl
      rw [Nat.add_sub_cancel, opened] at last
      cases last
    have closed : Text.Closed (p.page.slice i k) := by
      refine closed_of_last (n := k - 1 - i) ?_ (by omega)
      rw [Text.slice, List.getElem?_take_of_lt (by omega), List.getElem?_drop,
        show i + (k - 1 - i) = k - 1 by omega]
      exact last
    rw [← p.page.slice_append_slice (Nat.le_of_lt later) (Nat.le_of_lt ahead)] at holds
    have inserted := insert _ _ holds closed (by omega) (List.ne_nil_of_length_pos (by omega))
    rw [put]
    refine Arrives.whole ?_ (reached _ inserted)
    rw [List.append_assoc, List.head?_append, begins k later]
    rfl

section Scanned

variable (scanned : p.marks = Markup.scan p.page)

include scanned

theorem style_position_behind (plain : Sym.dottedI ∉ p.page) {pos n : Nat} {mark : Option Mark}
    (settled : Settled p.page pos)
    (opened : p.page[pos]? = some (.scalar '<'))
    (read : (within p.page pos).readTag = some (mark, n)) (later : pos < p.position .style)
    (ahead : p.position .style < pos + n + 1) :
    p.page[p.position .style - 1]? = some (.scalar '>') := by
  have formed := formed_of_scanned scanned
  rcases p.style_position_cases with tag | ⟨-, -, html⟩ | doctype | zero
  · obtain ⟨m, member, seen⟩ := tag.mem
    rw [scanned] at member
    have outside := settled.tag_outside plain opened read member seen
    omega
  · exact (formed.tagEnds _ (.inl html)).2.2
  · exact (formed.tagEnds _ (.inr doctype)).2.2
  · omega

/-- What a scan of the old page reads stays, unless it is a block that is moved. -/
theorem read_spared (plain : Sym.dottedI ∉ p.page) {pos n : Nat} {mark : Option Mark}
    (settled : Settled p.page pos)
    (opened : p.page[pos]? = some (.scalar '<'))
    (read : (within p.page pos).readTag = some (mark, n))
    (stays : ∀ b ∈ p.moved, mark ≠ some (.block b)) :
    ∀ x, pos ≤ x → x < pos + n + 1 → ¬ p.Deletes x := by
  have formed := formed_of_scanned scanned
  have apart : ∀ b ∈ p.moved, b.stop ≤ pos ∨ pos + n + 1 ≤ b.start := by
    intro b member
    have found := mem_blocks_of_moved member
    rw [scanned] at found
    rcases settled.beside plain opened read (Marks.mem_blocks.mp found) with early | here | late
    · exact .inl early
    · exact absurd here (stays b member)
    · exact .inr late
  rcases Nat.eq_zero_or_pos n with rfl | long
  · exact spared_between formed opened (by decide) opened (by decide) apart
  · have last := (readTag_reading read).closed (by omega)
    exact spared_between formed opened (by decide) last (by decide) apart

theorem moved_passes {b : Block} (member : b ∈ p.moved) {pos n : Nat}
    (read : (within p.page pos).readTag = some (some (.block b), n))
    (before : pos + n + 1 ≤ p.position .script) :
    Arrives (p.onward pos) (p.onward (pos + n + 1)) := by
  have formed := formed_of_scanned scanned
  have last := position_le formed .script
  obtain ⟨_, _, _, _, _, start, -, stop, stops⟩ := (readTag_reading read).of_block rfl
  have bounds := span_bounds formed member
  refine gone_passes (by omega) before (by omega) ?_
  intro x behind ahead
  exact ⟨b, member, by omega, by omega⟩

end Scanned

theorem other_passes (joins : p.JoinsNothing) {pos : Nat}
    (opened : p.page[pos]? = some (.scalar '<')) (before : pos < p.position .script)
    (kept : ¬ p.Deletes pos) (other : ¬ Begins (p.page.drop pos)) :
    Arrives (p.onward pos) (p.onward (pos + 1)) := by
  have inside := Markup.position_lt opened
  rw [p.onward_succ (Nat.le_of_lt inside), inserts_before before, if_neg kept, opened]
  refine (p.style_passes pos _).trans (.read rfl (reach_of_not_begins rfl ?_) (.here _))
  exact fun begins => other (joins.opens pos opened kept begins)

theorem inserted_never_closes (p : Plan) (kind : Kind) (i : Nat) {rest : Text}
    (later : NeverCloses .style rest) : NeverCloses .style (p.inserted kind i ++ rest) := by
  rcases p.inserted_cases kind i with none | ⟨before, behind, parts, front, back⟩
  · rw [none]
    exact later
  · rw [parts, List.append_assoc, List.append_assoc]
    exact neverCloses_append (Text.not_mem_of_isBlank front (by decide)) (neverCloses_reference kind
      (neverCloses_append (Text.not_mem_of_isBlank back (by decide)) later))

theorem onward_never_closes (joins : p.JoinsNothing) {i : Nat} (bound : i ≤ p.page.length + 1)
    (never : ∀ j, i ≤ j → ¬ ClosesAt p.page .style j) : NeverCloses .style (p.onward i) := by
  induction bound using Nat.decreasingInduction with
  | self =>
    rw [onward, stretch_self]
    rfl
  | of_succ i bound ih =>
    have later := ih fun j behind => never j (by omega)
    rw [p.onward_succ (by omega), inserts, List.append_assoc]
    refine inserted_never_closes p .style i (inserted_never_closes p .script i ?_)
    split
    · exact later
    · rename_i kept
      cases stands : p.page[i]? with
      | none => exact later
      | some s =>
        refine neverCloses_cons ?_ later
        intro closes
        have bracket : s = .scalar '<' :=
          Option.some.inj (Text.getElem?_of_begins closes.1 (x := 0) rfl)
        subst bracket
        exact never i (Nat.le_refl i) (joins.closes i stands kept closes)

section Scanned

variable (scanned : p.marks = Markup.scan p.page)

include scanned

theorem settled_arrives (plain : Sym.dottedI ∉ p.page) (joins : p.JoinsNothing) {pos : Nat}
    (settled : Settled p.page pos) (before : pos ≤ p.position .script) :
    Arrives (p.onward 0) (p.onward pos) := by
  have last := position_le (formed_of_scanned scanned) .script
  -- Beside each step of the old scan. Of a moved block nothing is left to stop at; what stays is
  -- passed over in the new page as well, with the reference to the styles if that goes into it.
  induction settled with
  | start => exact .here _
  | @skip pos s settled stands other ih =>
    refine (ih (by omega)).trans (step_passes before (by omega) (.inr ?_))
    rw [stands]
    exact fun same => other (Option.some.inj same)
  | @read pos n mark settled opened read closed ih =>
    refine (ih (by omega)).trans ?_
    by_cases moved : ∃ b ∈ p.moved, mark = some (.block b)
    · obtain ⟨b, member, rfl⟩ := moved
      exact moved_passes scanned member read before
    · have spared := read_spared scanned plain settled opened read fun b member here =>
        moved ⟨b, member, here⟩
      have behind := style_position_behind scanned plain settled opened read
      rcases Nat.eq_zero_or_pos n with rfl | long
      · refine other_passes joins opened (by omega) (spared pos (Nat.le_refl pos) (by omega)) ?_
        refine not_begins plain opened read fun kind unclosed => ?_
        exact absurd (closed kind unclosed).2.1 (Nat.lt_irrefl 0)
      · rcases slice_piece plain opened read long with ⟨piece, -⟩ | ⟨kind, unclosed, opening⟩
        · exact passage_passes (fun _ _ piece => piece.insert) (fun t piece => piece.reach _) opened
            (by omega) before (by omega) spared behind piece
        · obtain ⟨rfl, -, never⟩ := closed kind unclosed
          have never := onward_never_closes joins (i := pos + n + 1) (by omega)
            fun j later => never j (by omega)
          refine passage_passes (fun _ _ opening => opening.insert) ?_ opened (by omega) before
            (by omega) spared behind opening
          intro t opening
          rw [reach_opening opening, elementRest, never]
          rfl

end Scanned

end Plan

end Unbundle
