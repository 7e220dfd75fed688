import Unbundle.Proofs.Assets.Settling
import Unbundle.Proofs.Assets.Traced
import Unbundle.Proofs.Text.Slice

namespace Unbundle

namespace Text

/-- The text less the line breaks at its two ends. -/
structure Stripped (t body : Text) : Prop where
  parts : ∃ front back : Text, t = front ++ body ++ back ∧ ∀ s ∈ front ++ back, s = .scalar '\n'
  first : body.head? ≠ some (.scalar '\n')
  last : body.getLast? ≠ some (.scalar '\n')

theorem stripped_trim (t : Text) : t.Stripped (t.trim (· == .scalar '\n')) := by
  refine ⟨⟨_, _, (trim_between _ t).symm, ?_⟩, fun first => ?_, fun last => ?_⟩
  · intro s member
    rcases List.mem_append.mp member with front | back
    · have kept := List.mem_takeWhile_imp front
      exact beq_iff_eq.mp kept
    · have kept := List.mem_takeWhile_imp (List.mem_reverse.mp back)
      exact beq_iff_eq.mp kept
  · exact absurd (trim_first first) (by simp)
  · exact absurd (trim_last last) (by simp)

end Text

/-- Bodies under numbered banners, with an empty line between one and the next. -/
def Kind.sheet (kind : Kind) (number : Nat) : List Text → Text
  | [] => "\n"
  | [body] => kind.banner number ++ "\n" ++ body ++ "\n"
  | body :: bodies => kind.banner number ++ "\n" ++ body ++ "\n\n" ++ kind.sheet (number + 1) bodies

namespace Assets

def textOf (a : Assets) : Kind → Option Text
  | .style => a.styleText
  | .script => a.scriptText

def blocksOf (a : Assets) : Kind → Nat
  | .style => a.styleBlocks
  | .script => a.scriptBlocks

end Assets

namespace Plan

variable {p : Plan}

theorem joined_eq_sheet (kind : Kind) (inners : List Text) :
    joined kind inners = kind.sheet 1 (inners.map (Text.trim (· == .scalar '\n'))) := by
  have numbered_from : ∀ number, Text.joinWith "\n\n" ((inners.zipIdx number).map
      fun inner => numbered kind inner.2 inner.1) ++ "\n" =
        kind.sheet number (inners.map (Text.trim (· == .scalar '\n'))) := by
    induction inners with
    | nil => intro number; rfl
    | cons inner inners ih =>
      intro number
      cases inners with
      | nil => simp [Text.joinWith, numbered, Kind.sheet]
      | cons next inners =>
        have later := ih (number + 1)
        simp only [List.zipIdx_cons, List.map_cons, Text.joinWith] at later ⊢
        rw [List.intercalate_cons_cons, List.append_assoc, later]
        simp only [numbered, Kind.sheet]
  exact numbered_from 1

theorem textOf_assets (p : Plan) (kind : Kind) : p.assets.textOf kind = p.text? kind := by
  cases kind <;> rfl

theorem blocksOf_assets (p : Plan) (kind : Kind) :
    p.assets.blocksOf kind = (p.found kind).length := by
  cases kind <;> rfl

/-- The blocks that can be moved, less the first of each kind. -/
def others (p : Plan) : List Block := (p.found .style).drop 1 ++ (p.found .script).drop 1

def InOthers (p : Plan) (i : Nat) : Prop := ∃ b ∈ p.others, (p.span b).1 ≤ i ∧ i < (p.span b).2

instance (p : Plan) (i : Nat) : Decidable (p.InOthers i) :=
  inferInstanceAs (Decidable (∃ b ∈ p.others, (p.span b).1 ≤ i ∧ i < (p.span b).2))

section Modes

variable (page : Text)

theorem moved_every : (make page true).moved.Perm ((make page false).moved ++
    (make page false).others) := by
  have parts : ∀ kind, (make page true).chosen kind =
      (make page false).chosen kind ++ ((make page false).found kind).drop 1 := fun kind =>
    (List.take_append_drop 1 _).symm
  rw [moved, parts, parts, moved, others, List.append_assoc, List.append_assoc]
  exact (List.perm_append_comm_assoc _ _ _).append_left _

theorem deletes_every (i : Nat) :
    (make page true).Deletes i ↔ (make page false).Deletes i ∨ (make page false).InOthers i := by
  have members : ∀ b, b ∈ (make page true).moved ↔ b ∈ (make page false).moved ∨
      b ∈ (make page false).others := fun b =>
    (moved_every page).mem_iff.trans List.mem_append
  constructor
  · rintro ⟨b, member, covered⟩
    exact ((members b).mp member).imp (fun first => ⟨b, first, covered⟩)
      fun other => ⟨b, other, covered⟩
  · rintro (⟨b, first, covered⟩ | ⟨b, other, covered⟩)
    · exact ⟨b, (members b).mpr (.inl first), covered⟩
    · exact ⟨b, (members b).mpr (.inr other), covered⟩

/-- The spans of the blocks that one mode leaves and the other takes stand in the page that the
    first leaves, symbol by symbol. -/
theorem not_deletes_others {i : Nat} (other : (make page false).InOthers i) :
    ¬ (make page false).Deletes i := by
  rintro ⟨a, first, behind, before⟩
  obtain ⟨b, later, behind', before'⟩ := other
  have apart := (spans_apart (p := make page true) (Markup.scan_marks_wellFormed page)).perm
    (moved_every page) fun either => either.symm
  rcases (List.pairwise_append.mp apart).2.2 a first b later with ordered | ordered
  · exact absurd (before.trans_le (ordered.trans behind')) (Nat.lt_irrefl i)
  · exact absurd (before'.trans_le (ordered.trans behind)) (Nat.lt_irrefl i)

theorem chosen_eq_nil_iff (all : Bool) (kind : Kind) :
    (make page all).chosen kind = [] ↔ (make page false).found kind = [] := by
  cases all
  · change List.take 1 _ = [] ↔ _
    simp
  · exact Iff.rfl

theorem inserts_every (i : Nat) : (make page true).inserts i = (make page false).inserts i := by
  have same : ∀ kind, (make page true).inserted kind i = (make page false).inserted kind i := by
    intro kind
    have chosen := (chosen_eq_nil_iff page true kind).trans (chosen_eq_nil_iff page false kind).symm
    simp only [inserted, ne_eq, chosen]
    rfl
  rw [inserts, same, same, inserts]

theorem traced_every : (make page true).traced =
    (make page false).traced.filter fun s => s.1.all fun i => ¬ (make page false).InOthers i := by
  rw [traced, traced, List.filter_flatMap]
  apply List.flatMap_congr
  intro i _
  rw [tracedAt, tracedAt, List.filter_append, inserts_every]
  congr 1
  · symm
    apply List.filter_eq_self.mpr
    intro s member
    obtain ⟨_, _, rfl⟩ := List.mem_map.mp member
    rfl
  · by_cases first : (make page false).Deletes i
    · rw [if_pos ((deletes_every page i).mpr (.inl first)), if_pos first, List.filter_nil]
    · rw [if_neg first]
      by_cases other : (make page false).InOthers i
      · rw [if_pos ((deletes_every page i).mpr (.inr other)), eq_comm, List.filter_eq_nil_iff]
        intro s member
        obtain ⟨_, _, rfl⟩ := List.mem_map.mp member
        simp [other]
      · rw [if_neg (mt (deletes_every page i).mp (not_or_intro first other))]
        symm
        apply List.filter_eq_self.mpr
        intro s member
        obtain ⟨_, _, rfl⟩ := List.mem_map.mp member
        simp [other]

theorem others_traced {i : Nat} {s : Sym} (other : (make page false).InOthers i)
    (stands : page[i]? = some s) : (some i, s) ∈ (make page false).traced := by
  have inside := Markup.position_lt stands
  refine List.mem_flatMap.mpr ⟨i, List.mem_range.mpr (Nat.lt_succ_of_lt inside), ?_⟩
  have here : (make page false).page[i]? = some s := stands
  rw [tracedAt, if_neg (not_deletes_others page other), here]
  exact List.mem_append_right _ List.mem_cons_self

theorem not_inOthers (single : ∀ kind, ((make page false).found kind).length ≤ 1) (i : Nat) :
    ¬ (make page false).InOthers i := by
  have none : (make page false).others = [] := by
    rw [others, List.drop_of_length_le (single .style), List.drop_of_length_le (single .script)]
    rfl
  rintro ⟨b, member, -⟩
  rw [none] at member
  cases member

theorem text?_every {kind : Kind} (found : (make page false).found kind ≠ []) :
    (make page true).text? kind = some (kind.sheet 1
      (((make page false).found kind).map fun b => (b.inner page).trim (· == .scalar '\n'))) := by
  obtain ⟨b, bs, here⟩ := List.exists_cons_of_ne_nil found
  have there : (make page true).found kind = b :: bs := here
  rw [text?, chosen, there, here]
  change some (joined kind ((b :: bs).map (·.inner page))) = _
  rw [joined_eq_sheet, List.map_map]
  rfl

theorem text?_first {kind : Kind} {b : Block} {bs : List Block}
    (found : (make page false).found kind = b :: bs) :
    (make page false).text? kind = some (b.inner page) := by
  rw [text?, chosen, found]
  rfl

end Modes

end Plan

namespace Assets

/-- What the two modes make of a page. The blocks that only the second takes out stand in the page
    of the first; the second page is the first without them, and their bodies come under banners. -/
structure Counterparts (page : Text) (first every : Assets) : Prop where
  blocks : ∀ kind, every.blocksOf kind = first.blocksOf kind
  absent : ∀ kind, every.textOf kind = none ↔ first.textOf kind = none
  reads : first.markup = (Plan.make page false).traced.map Prod.snd
  stand : ∀ i s, (Plan.make page false).InOthers i → page[i]? = some s →
    (some i, s) ∈ (Plan.make page false).traced
  without : every.markup = ((Plan.make page false).traced.filter fun s =>
    s.1.all fun i => ¬ (Plan.make page false).InOthers i).map Prod.snd
  same : (∀ kind, first.blocksOf kind ≤ 1) → every.markup = first.markup
  bodies : ∀ kind, (Markup.scan page).extractable kind ≠ [] → ∃ bodies : List Text,
    List.Forall₂ (fun b body => (b.inner page).Stripped body)
      ((Markup.scan page).extractable kind) bodies ∧
    every.textOf kind = some (kind.sheet 1 bodies) ∧
    ∃ text body, first.textOf kind = some text ∧ bodies.head? = some body ∧ text.Stripped body

theorem ofText_counterparts (page : Text) :
    Counterparts page (ofText page false) (ofText page true) := by
  have formed : ∀ all, (Plan.make page all).marks.WellFormed (Plan.make page all).page :=
    fun _ => Markup.scan_marks_wellFormed page
  have without : (ofText page true).markup = _ := Plan.markup_traced (formed true)
  rw [Plan.traced_every] at without
  refine ⟨?_, ?_, Plan.markup_traced (formed false), fun i s => Plan.others_traced page, without,
    ?_, ?_⟩
  · intro kind
    rw [ofText, ofText, Plan.blocksOf_assets, Plan.blocksOf_assets]
    rfl
  · intro kind
    rw [ofText, ofText, Plan.textOf_assets, Plan.textOf_assets, Plan.text_none_iff,
      Plan.text_none_iff, Plan.chosen_eq_nil_iff, Plan.chosen_eq_nil_iff]
  · intro single
    have vacant := Plan.not_inOthers page fun kind => by
      rw [← Plan.blocksOf_assets]
      exact single kind
    rw [without, show (ofText page false).markup = _ from Plan.markup_traced (formed false),
      List.filter_eq_self.mpr]
    intro s _
    simp [vacant]
  · intro kind found
    obtain ⟨b, bs, here⟩ := List.exists_cons_of_ne_nil found
    refine ⟨((Markup.scan page).extractable kind).map fun b =>
      (b.inner page).trim (· == .scalar '\n'), ?_, ?_, b.inner page, _, ?_, ?_,
      Text.stripped_trim _⟩
    · rw [List.forall₂_map_right_iff, List.forall₂_same]
      exact fun b _ => Text.stripped_trim _
    · rw [ofText, Plan.textOf_assets]
      exact Plan.text?_every page found
    · rw [ofText, Plan.textOf_assets]
      exact Plan.text?_first page here
    · rw [here]
      rfl

end Assets

end Unbundle
