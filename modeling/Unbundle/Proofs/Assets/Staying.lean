import Unbundle.Proofs.Assets.Stretch

namespace Unbundle

theorem Markup.indented_ne_nil (page : Text) (pos : Nat) (kind : Kind) :
    indented page pos kind.reference ≠ [] := by
  have nonempty : kind.reference ≠ [] := by cases kind <;> decide
  obtain ⟨before, behind, parts, -, -⟩ := indented_around page pos kind.reference
  rw [parts]
  simp [nonempty]

namespace Plan

variable {p : Plan}

/-- A block that is found and not chosen. -/
def Stays (p : Plan) (b : Block) : Prop := b ∈ p.marks.blocks ∧ b ∉ p.moved

/-- What stands in the new page in front of the symbol at a position. -/
def ahead (p : Plan) (i : Nat) : Text := p.stretch 0 i ++ p.inserts i

/-- The block stands in the markup whole, between what is written for the text in front of it and
    what is written for the text behind it. -/
def Keeps (p : Plan) (markup : Text) (b : Block) : Prop :=
  markup = p.ahead b.start ++ p.page.slice b.start b.stop ++ p.stretch b.stop (p.page.length + 1)

/-- The reference to the styles goes behind the `<html>` tag, and that tag ends inside the block,
    where a quote of the one is text of the other. -/
def CutByHtml (p : Plan) (b : Block) : Prop :=
  p.chosen .style ≠ [] ∧ p.marks.headClose? = none ∧ p.marks.bodyOpen? = none ∧
    ∃ n, p.marks.htmlOpenEnd? = some n ∧ b.start < n ∧ n < b.stop

theorem script_position_outside (formed : p.marks.WellFormed p.page) {b : Block}
    (member : b ∈ p.marks.blocks) :
    p.position .script < b.start ∨ b.stop ≤ p.position .script := by
  have bound := (formed.blocks b member).stop_le
  have tag : ∀ i, p.marks.MarksTag i → i < b.start ∨ b.stop ≤ i := by
    intro i marked
    have uncovered := (formed.tags i marked).2 b member
    unfold Block.Covers at uncovered
    omega
  unfold position
  cases found : p.marks.bodyClose?.or p.marks.htmlClose? with
  | none => exact .inr bound
  | some i =>
    rcases Option.or_eq_some_iff.mp found with body | ⟨_, html⟩
    · exact tag i (.inr (.inr (.inl body)))
    · exact tag i (.inr (.inr (.inr html)))

theorem style_position_cases (p : Plan) :
    p.marks.MarksTag (p.position .style) ∨
      (p.marks.headClose? = none ∧ p.marks.bodyOpen? = none ∧
        p.marks.htmlOpenEnd? = some (p.position .style)) ∨
      p.marks.doctypeEnd? = some (p.position .style) ∨ p.position .style = 0 := by
  cases head : p.marks.headClose? with
  | some i => exact .inl (.inl (by simp [position, head]))
  | none =>
    cases body : p.marks.bodyOpen? with
    | some i => exact .inl (.inr (.inl (by simp [position, head, body])))
    | none =>
      cases html : p.marks.htmlOpenEnd? with
      | some i => exact .inr (.inl ⟨rfl, rfl, by simp [position, head, body, html]⟩)
      | none =>
        cases doctype : p.marks.doctypeEnd? with
        | some i =>
          exact .inr (.inr (.inl (by simp [position, head, body, html, doctype])))
        | none => exact .inr (.inr (.inr (by simp [position, head, body, html, doctype])))

theorem style_position_inside (formed : p.marks.WellFormed p.page) {b : Block}
    (member : b ∈ p.marks.blocks) (behind : b.start < p.position .style)
    (before : p.position .style < b.stop) :
    p.marks.headClose? = none ∧ p.marks.bodyOpen? = none ∧
      p.marks.htmlOpenEnd? = some (p.position .style) := by
  rcases p.style_position_cases with tag | html | doctype | zero
  · exact absurd ⟨Nat.le_of_lt behind, before⟩ ((formed.tags _ tag).2 b member)
  · exact html
  · exact absurd ⟨behind, before⟩ (formed.doctype _ doctype b member)
  · omega

theorem moved_outside (formed : p.marks.WellFormed p.page) {b : Block} (stays : p.Stays b) :
    ∀ c ∈ p.moved, c.stop ≤ b.start ∨ b.stop ≤ c.start := by
  intro c chosen
  have different : c ≠ b := by
    rintro rfl
    exact stays.2 chosen
  exact formed.apart (mem_blocks_of_moved chosen) stays.1 different

theorem staying_spared (formed : p.marks.WellFormed p.page) {b : Block} (stays : p.Stays b) :
    ∀ x, b.start ≤ x → x < b.stop → ¬ p.Deletes x := by
  have block := formed.blocks b stays.1
  exact spared_between formed block.opened (by decide) block.closed (by decide)
    (moved_outside formed stays)

theorem inserts_inside (formed : p.marks.WellFormed p.page) {b : Block} (stays : p.Stays b)
    {x : Nat} (behind : b.start < x) (before : x < b.stop) :
    p.inserts x = p.inserted .style x := by
  have outside := script_position_outside formed stays.1
  rw [inserts, inserted_of_ne (show p.position .script ≠ x by omega), List.append_nil]

theorem cutByHtml_of_inserted (formed : p.marks.WellFormed p.page) {b : Block} (stays : p.Stays b)
    {x : Nat} (behind : b.start < x) (before : x < b.stop) (put : p.inserted .style x ≠ []) :
    p.CutByHtml b := by
  unfold inserted at put
  split at put
  · rename_i here
    obtain ⟨chosen, rfl⟩ := here
    obtain ⟨head, body, html⟩ := style_position_inside formed stays.1 behind before
    exact ⟨chosen, head, body, _, html, behind, before⟩
  · contradiction

theorem staying_stretch (formed : p.marks.WellFormed p.page) {b : Block} (stays : p.Stays b) :
    p.stretch b.start b.stop =
      p.inserts b.start ++ .scalar '<' :: p.stretch (b.start + 1) b.stop := by
  have block := formed.blocks b stays.1
  have length := block.start_lt_stop
  exact stretch_from length (staying_spared formed stays _ (Nat.le_refl _) length) block.opened

theorem markup_around (formed : p.marks.WellFormed p.page) {b : Block} (stays : p.Stays b) :
    p.assets.markup = p.ahead b.start ++ (.scalar '<' :: p.stretch (b.start + 1) b.stop) ++
      p.stretch b.stop (p.page.length + 1) := by
  have block := formed.blocks b stays.1
  have length := block.start_lt_stop
  have inside := block.stop_le
  rw [assets_stretch formed, ← p.stretch_append (Nat.zero_le b.start) (by omega),
    ← p.stretch_append (Nat.le_of_lt length) (by omega), staying_stretch formed stays, ahead]
  simp only [List.append_assoc]

theorem staying_slice (formed : p.marks.WellFormed p.page) {b : Block} (stays : p.Stays b) :
    p.page.slice b.start b.stop = .scalar '<' :: p.page.slice (b.start + 1) b.stop := by
  have block := formed.blocks b stays.1
  rw [p.page.slice_cons block.start_lt_stop, block.opened]
  rfl

theorem keeps_iff_stretch (formed : p.marks.WellFormed p.page) {b : Block} (stays : p.Stays b) :
    p.Keeps p.assets.markup b ↔
      p.stretch (b.start + 1) b.stop = p.page.slice (b.start + 1) b.stop := by
  rw [Keeps, markup_around formed stays, staying_slice formed stays, List.append_left_inj,
    List.append_right_inj, List.cons.injEq]
  exact and_iff_right rfl

theorem keeps_of_not_cut (formed : p.marks.WellFormed p.page) {b : Block} (stays : p.Stays b)
    (whole : ¬ p.CutByHtml b) : p.Keeps p.assets.markup b := by
  rw [keeps_iff_stretch formed stays]
  have block := formed.blocks b stays.1
  apply stretch_copy block.start_lt_stop
  · intro x behind before
    exact staying_spared formed stays x (by omega) before
  · intro x behind before
    rw [inserts_inside formed stays behind before]
    by_contra put
    exact whole (cutByHtml_of_inserted formed stays behind before put)

theorem not_keeps_of_cut (formed : p.marks.WellFormed p.page) {b : Block} (stays : p.Stays b)
    (cut : p.CutByHtml b) : ¬ p.Keeps p.assets.markup b := by
  rw [keeps_iff_stretch formed stays]
  intro copied
  obtain ⟨chosen, head, body, n, html, behind, before⟩ := cut
  have block := formed.blocks b stays.1
  have inside := block.stop_le
  have spared : ∀ x, b.start + 1 ≤ x → x < b.stop → ¬ p.Deletes x := fun x reached ends =>
    staying_spared formed stays x (by omega) ends
  have here : p.position .style = n := by simp [position, head, body, html]
  have put : p.inserts n ≠ [] := by
    rw [inserts_inside formed stays behind before, inserted, if_pos ⟨chosen, here⟩]
    exact Markup.indented_ne_nil _ _ .style
  -- All symbols of the block stay, and the reference comes to them: the lengths differ.
  have length := congrArg List.length copied
  rw [← p.stretch_append (show b.start + 1 ≤ n from behind) (Nat.le_of_lt before),
    p.stretch_cons before, written_eq, List.length_append, List.length_append, List.length_append,
    Text.length_slice _ inside] at length
  have front := length_le_stretch (i := b.start + 1) (j := n) (by omega) fun x reached ends =>
    spared x reached (by omega)
  have rest := length_le_stretch (i := n + 1) (j := b.stop) inside fun x reached ends =>
    spared x (by omega) ends
  have symbol : (if p.Deletes n then [] else p.page[n]?.toList).length = 1 := by
    rw [if_neg (spared n behind before), List.getElem?_eq_getElem (by omega)]
    rfl
  have positive := List.length_pos_iff.mpr put
  omega

theorem ahead_extends (formed : p.marks.WellFormed p.page) {b c : Block} (stays : p.Stays b)
    (kept : p.Keeps p.assets.markup b) (ordered : b.stop ≤ c.start) :
    p.ahead b.start ++ p.page.slice b.start b.stop <+: p.ahead c.start := by
  have length := (formed.blocks b stays.1).start_lt_stop
  rw [keeps_iff_stretch formed stays] at kept
  have copy : p.stretch b.start b.stop = p.inserts b.start ++ p.page.slice b.start b.stop := by
    rw [staying_stretch formed stays, kept, staying_slice formed stays]
  refine ⟨p.stretch b.stop c.start ++ p.inserts c.start, ?_⟩
  have front : p.stretch 0 c.start =
      p.stretch 0 b.start ++ (p.stretch b.start b.stop ++ p.stretch b.stop c.start) := by
    rw [p.stretch_append (Nat.le_of_lt length) ordered, p.stretch_append (Nat.zero_le _) (by omega)]
  rw [ahead, ahead, front, copy]
  simp only [List.append_assoc]

end Plan

/-- A block that is not moved stands in the markup as one piece, but for the block that the end of
    the `<html>` tag falls into. Blocks that stand as one piece keep their order. -/
theorem Assets.ofText_keeps_blocks (page : Text) (all : Bool) :
    (∀ b, (Plan.make page all).Stays b →
      ((Plan.make page all).Keeps (Assets.ofText page all).markup b ↔
        ¬ (Plan.make page all).CutByHtml b)) ∧
    ∀ b c, (Plan.make page all).Stays b → (Plan.make page all).Stays c → b.start < c.start →
      (Plan.make page all).Keeps (Assets.ofText page all).markup b →
        (Plan.make page all).ahead b.start ++ page.slice b.start b.stop <+:
          (Plan.make page all).ahead c.start := by
  have formed : (Plan.make page all).marks.WellFormed (Plan.make page all).page :=
    Markup.scan_marks_wellFormed page
  constructor
  · intro b stays
    constructor
    · intro kept cut
      exact Plan.not_keeps_of_cut formed stays cut kept
    · exact Plan.keeps_of_not_cut formed stays
  · intro b c left right first kept
    refine Plan.ahead_extends formed left kept ?_
    rcases formed.apart left.1 right.1 (by rintro rfl; omega) with ordered | ordered
    · exact ordered
    · have length := (formed.blocks c right.1).start_lt_stop
      omega

/-- An external script whose opening tag the `<html>` tag, with its own quotes, ends in. -/
def quotedScript : Text := "<html a='<script src=\"'>\"></script><style>p</style>"

theorem markup_breaks_quotedScript : ∃ b, (Plan.make quotedScript false).Stays b ∧
    ¬ quotedScript.slice b.start b.stop <:+: (Assets.ofText quotedScript false).markup := by
  have broken : ∃ b ∈ (Markup.scan quotedScript).blocks, b.kind = .script ∧
      ¬ quotedScript.slice b.start b.stop <:+: (Assets.ofText quotedScript false).markup := by
    rw [Assets.ofText_stretch]
    decide +kernel
  have styles : ∀ c ∈ (Plan.make quotedScript false).moved, c.kind = .style := by decide +kernel
  obtain ⟨b, member, script, missing⟩ := broken
  refine ⟨b, ⟨member, ?_⟩, missing⟩
  intro chosen
  rw [styles b chosen] at script
  cases script

end Unbundle
