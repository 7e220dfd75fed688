import Unbundle.Proofs.Assets.Modes
import Unbundle.Proofs.Markup.Landmark

namespace Unbundle

namespace Landmark

variable (l : Landmark)

theorem tag_bracket : ∀ k < l.tag.length, l.tag[k]? = some (.scalar '<') → k = 0 := by
  cases l <;> decide

theorem tag_close : ∀ k < l.tag.length, l.tag[k]? ≠ some (.scalar '>') := by
  cases l <;> decide

theorem tag_ink : ∀ k < l.tag.length, l.tag[k]?.all fun s => !s.isBlank := by
  cases l <;> decide

theorem tag_long : 1 < l.tag.length := by
  cases l <;> decide

end Landmark

namespace Markup

variable {page : Text} {l : Landmark} {i : Nat}

def tagStop (page : Text) (l : Landmark) (i : Nat) : Nat := min (i + l.tag.length + 1) page.length

namespace NameAt

theorem symbol_at (named : NameAt page l.tag i) {x : Nat} (behind : i ≤ x)
    (before : x < i + l.tag.length) :
    ∃ s, page[x]? = some s ∧ l.tag[x - i]? = some s.asciiLower := by
  have short : x - i < l.tag.length := by omega
  have stands := named.symbol short
  rw [Nat.add_sub_of_le behind, List.getElem?_eq_getElem short] at stands
  obtain ⟨s, here, folded⟩ := Option.map_eq_some_iff.mp stands
  exact ⟨s, here, by rw [List.getElem?_eq_getElem short, folded]⟩

theorem no_bracket (named : NameAt page l.tag i) {x : Nat} (behind : i < x)
    (before : x ≤ i + l.tag.length) : page[x]? ≠ some (.scalar '<') := by
  intro bracket
  rcases Nat.lt_or_eq_of_le before with inside | rfl
  · obtain ⟨s, here, folded⟩ := named.symbol_at (Nat.le_of_lt behind) inside
    rw [bracket] at here
    cases here
    have first := l.tag_bracket _ (by omega) folded
    omega
  · exact absurd (named.2 _ bracket) (by decide)

theorem no_close (named : NameAt page l.tag i) {x : Nat} (behind : i ≤ x)
    (before : x < i + l.tag.length) : page[x]? ≠ some (.scalar '>') := by
  intro close
  obtain ⟨s, here, folded⟩ := named.symbol_at behind before
  rw [close] at here
  cases here
  exact l.tag_close _ (by omega) folded

theorem ink (named : NameAt page l.tag i) {x : Nat} (behind : i ≤ x)
    (before : x < i + l.tag.length) : ∃ s, page[x]? = some s ∧ s.isBlank = false := by
  obtain ⟨s, here, folded⟩ := named.symbol_at behind before
  refine ⟨s, here, ?_⟩
  have ink := l.tag_ink (x - i) (by omega)
  rw [folded, Option.all_some, Sym.isBlank_asciiLower, Bool.not_eq_true'] at ink
  exact ink

end NameAt

theorem Counts.apart (counts : Counts page l i) {b : Block} (member : b ∈ (scan page).blocks) :
    b.stop ≤ i ∨ i + l.tag.length < b.start := by
  have opened := ((scan_marks_wellFormed page).blocks b member).opened
  have uncovered := counts.outside b member
  rw [Block.Covers] at uncovered
  by_contra both
  exact counts.named.no_bracket (x := b.start) (by omega) (by omega) opened

theorem Place.not_inside {kind : Kind} {front : Option Landmark} {n : Nat}
    (place : Place page kind front n) (counts : Counts page l i) (behind : i < n) :
    tagStop page l i ≤ n := by
  have named := counts.named
  have tag : ∀ {l' : Landmark}, Counts page l' n → tagStop page l i ≤ n := by
    intro l' other
    by_contra within
    rw [tagStop] at within
    exact named.no_bracket behind (by omega) other.named.bracket
  cases place with
  | headClose first => exact tag first.1
  | bodyOpen head first => exact tag first.1
  | htmlOpen head body first ends =>
    obtain ⟨⟨e, close, rfl⟩, -⟩ := ends
    by_contra within
    rw [tagStop] at within
    exact named.no_close (x := e) (by omega) (by omega) close.2.1
  | start head body html => omega
  | bodyClose last => exact tag last.1
  | htmlClose body last => exact tag last.1
  | stop body html => exact Nat.min_le_right _ _

theorem Place.counts {kind : Kind} {n : Nat} (place : Place page kind (some l) n) :
    Counts page l n := by
  cases place with
  | headClose first => exact first.1
  | bodyOpen head first => exact first.1
  | bodyClose last => exact last.1
  | htmlClose body last => exact last.1

theorem Place.apart {front : Option Landmark} {n m : Nat} (style : Place page .style (some l) n)
    (script : Place page .script front m) : n ≠ m := by
  rintro rfl
  have named := style.counts.named
  cases script with
  | bodyClose last =>
    have same := landmark_unique named last.1.named
    subst same
    cases style
  | htmlClose body last =>
    have same := landmark_unique named last.1.named
    subst same
    cases style
  | stop body html =>
    have bound := position_lt named.bracket
    omega

theorem lead_follows {pos : Nat} (inside : pos ≤ page.length) :
    pos - (lead page pos).length = 0 ∨
      page[pos - (lead page pos).length - 1]? = some (.scalar '\n') := by
  have parts : page.take pos =
      ((page.take pos).reverse.dropWhile (· != .scalar '\n')).reverse ++ lead page pos := by
    rw [lead, ← List.reverse_append, List.takeWhile_append_dropWhile, List.reverse_reverse]
  have newline := List.head?_dropWhile_not (· != .scalar '\n') (page.take pos).reverse
  have length := congrArg List.length parts
  cases front : (page.take pos).reverse.dropWhile (· != .scalar '\n') with
  | nil =>
    left
    rw [front, List.length_append, List.length_take, List.reverse_nil, List.length_nil] at length
    omega
  | cons s front' =>
    right
    rw [front] at parts length newline
    rw [List.length_append, List.length_take, List.length_reverse, List.length_cons] at length
    have place : pos - (lead page pos).length - 1 = front'.length := by omega
    have last : s = .scalar '\n' := by simpa using newline
    rw [place, ← List.getElem?_take_of_lt (show front'.length < pos by omega), parts, last]
    simp

theorem lineSpan_start {start : Nat} (inside : start ≤ page.length) (stop : Nat) :
    (lineSpan page start stop).1 = start ∨ (lineSpan page start stop).1 = 0 ∨
      page[(lineSpan page start stop).1 - 1]? = some (.scalar '\n') := by
  unfold lineSpan
  dsimp only
  split
  · exact .inr (lead_follows inside)
  · exact .inl rfl

theorem lineSpan_behind_ink {start stop x : Nat} {s : Sym} (stop_le : stop ≤ page.length)
    (start_le : start ≤ page.length) (stands : page[x]? = some s) (ink : s.isBlank = false)
    (before : x + 1 < start) : x + 1 < (lineSpan page start stop).1 := by
  have widens : Widens page start stop (lineSpan page start stop) := lineSpan_widens stop_le
  have behind : x < (lineSpan page start stop).1 := by
    by_contra covered
    have blank := (widens.lead x s (Nat.le_of_not_lt covered) (by omega) stands).1
    rw [ink] at blank
    cases blank
  rcases lineSpan_start start_le stop with narrow | zero | newline
  · omega
  · omega
  · refine Nat.lt_of_le_of_ne behind ?_
    intro same
    rw [← same, Nat.add_sub_cancel, stands] at newline
    cases newline
    exact absurd ink (by decide)

/-- Nothing, or a line break and the indentation of the tag at that position. -/
def IsGap (page : Text) (pos : Nat) (gap : Text) : Prop :=
  gap = [] ∨ (lead page pos).isBlank ∧ gap = "\n" ++ lead page pos

theorem indented_gap {pos : Nat} (inside : pos < page.length) (tag : Text) :
    ∃ before gap : Text, indented page pos tag = before ++ tag ++ gap ∧ IsGap page pos gap := by
  unfold indented
  dsimp only
  rw [if_neg (Nat.not_le_of_lt inside)]
  split
  · exact ⟨[], [], (List.append_nil tag).symm, .inl rfl⟩
  · rename_i alone
    simp only [Bool.or_eq_true, not_or, Bool.not_eq_true, Bool.not_eq_false'] at alone
    exact ⟨"    ", "\n" ++ lead page pos, by simp, .inr ⟨alone.2, rfl⟩⟩

end Markup

namespace Plan

open Markup

/-- The reference of a kind stands in the new page behind what comes from in front of a position of
    the old one, and in front of what comes from there on. Where a tag begins there, it follows upon
    the reference, or upon a line break and its indentation. -/
structure Lands (p : Plan) (kind : Kind) (landmark : Option Landmark) (i : Nat)
    (front back : List (Option Nat × Sym)) : Prop where
  put : p.traced = front ++ kind.reference.map (none, ·) ++ back
  before : ∀ x s, (some x, s) ∈ front → x < i
  behind : ∀ x s, (some x, s) ∈ back → i ≤ x
  next : ∀ l ∈ landmark, ∃ (gap : Text) (rest : List (Option Nat × Sym)),
    back = gap.map (none, ·) ++ p.page.placed i (tagStop p.page l i) ++ rest ∧ IsGap p.page i gap

section Landing

variable {page : Text} (all : Bool)

theorem tag_spared {l : Landmark} {i : Nat} (counts : Counts page l i) :
    ∀ x, i ≤ x → x < tagStop page l i → ¬ (make page all).Deletes x := by
  have formed : (make page all).marks.WellFormed (make page all).page := scan_marks_wellFormed page
  have named := counts.named
  have long := l.tag_long
  obtain ⟨s, last, ink⟩ := named.ink (x := i + l.tag.length - 1) (by omega) (by omega)
  have apart : ∀ b ∈ (make page all).moved, b.stop ≤ i ∨ i + l.tag.length < b.start :=
    fun b member => counts.apart (mem_blocks_of_moved member)
  intro x behind before gone
  rw [tagStop] at before
  rcases Nat.lt_or_eq_of_le (show x ≤ i + l.tag.length by omega) with inside | boundary
  · exact spared_between formed named.bracket (by decide) last ink
      (fun b member => (apart b member).imp_right Nat.le_of_lt) x behind inside gone
  · -- The symbol that ends the name may be a blank.
    obtain ⟨b, member, reached, ends⟩ := gone
    have widens := span_widens formed member
    rcases apart b member with left | right
    · have blank := widens.trail i _ left (by omega) named.bracket
      exact absurd blank (by decide)
    · have block := formed.blocks b (mem_blocks_of_moved member)
      have beyond : i + l.tag.length - 1 + 1 < ((make page all).span b).1 :=
        lineSpan_behind_ink block.stop_le (Nat.le_of_lt (position_lt block.opened)) last ink
          (by omega)
      omega

variable (tidy : Tidy page)

include tidy

theorem position_place (kind : Kind) :
    ∃ landmark, Place page kind landmark ((make page all).position kind) := by
  obtain ⟨starts, reads⟩ := tidy.reads
  cases kind with
  | style =>
    change ∃ landmark, Place page .style landmark ((((scan page).headClose?.or
      (scan page).bodyOpen?).or (scan page).htmlOpenEnd?).or (scan page).doctypeEnd? |>.getD 0)
    rw [reads.doctypeEnd?]
    cases head : (scan page).headClose? with
    | some n =>
      obtain ⟨i, first, rfl⟩ := tidy.first_found (l := .headClose) head
      exact ⟨_, .headClose first⟩
    | none =>
      have noHead := tidy.first_missing (l := .headClose) head
      cases body : (scan page).bodyOpen? with
      | some n =>
        obtain ⟨i, first, rfl⟩ := tidy.first_found (l := .bodyOpen) body
        exact ⟨_, .bodyOpen noHead first⟩
      | none =>
        have noBody := tidy.first_missing (l := .bodyOpen) body
        cases html : (scan page).htmlOpenEnd? with
        | some n =>
          obtain ⟨i, first, ends⟩ := tidy.first_found (l := .htmlOpen) html
          exact ⟨_, .htmlOpen noHead noBody first ends⟩
        | none => exact ⟨_, .start noHead noBody (tidy.first_missing (l := .htmlOpen) html)⟩
  | script =>
    change ∃ landmark, Place page .script landmark
      (((scan page).bodyClose?.or (scan page).htmlClose?).getD page.length)
    cases body : (scan page).bodyClose? with
    | some n =>
      obtain ⟨i, last, rfl⟩ := tidy.last_found (l := .bodyClose) body
      exact ⟨_, .bodyClose last⟩
    | none =>
      have noBody := tidy.last_missing (l := .bodyClose) body
      cases html : (scan page).htmlClose? with
      | some n =>
        obtain ⟨i, last, rfl⟩ := tidy.last_found (l := .htmlClose) html
        exact ⟨_, .htmlClose noBody last⟩
      | none => exact ⟨_, .stop noBody (tidy.last_missing (l := .htmlClose) html)⟩

theorem tag_silent {l : Landmark} {i : Nat} (counts : Counts page l i) :
    ∀ x, i < x → x < tagStop page l i → (make page all).inserts x = [] := by
  intro x behind before
  have elsewhere : ∀ kind, (make page all).position kind ≠ x := by
    rintro kind rfl
    obtain ⟨landmark, place⟩ := position_place all tidy kind
    exact Nat.not_le_of_lt before (place.not_inside counts behind)
  rw [inserts, inserted_of_ne (elsewhere .style), inserted_of_ne (elsewhere .script)]
  rfl

theorem inserts_landmark {kind : Kind} (chosen : (make page all).chosen kind ≠ [])
    {landmark : Option Landmark}
    (place : Place page kind landmark ((make page all).position kind)) :
    ∃ before gap : Text,
      (make page all).inserts ((make page all).position kind) = before ++ kind.reference ++ gap ∧
        ∀ l ∈ landmark, IsGap page ((make page all).position kind) gap := by
  obtain ⟨before, gap, parts, near⟩ : ∃ before gap : Text,
      (make page all).inserted kind ((make page all).position kind) =
          before ++ kind.reference ++ gap ∧
        ∀ l ∈ landmark, IsGap page ((make page all).position kind) gap := by
    rw [inserted, if_pos ⟨chosen, rfl⟩]
    cases landmark with
    | none =>
      obtain ⟨before, behind, parts, -, -⟩ := indented_around page _ kind.reference
      refine ⟨before, behind, parts, ?_⟩
      intro l none
      cases none
    | some l =>
      have inside := position_lt place.counts.named.bracket
      obtain ⟨before, gap, parts, near⟩ := indented_gap inside kind.reference
      exact ⟨before, gap, parts, fun _ _ => near⟩
  cases kind with
  | script =>
    refine ⟨(make page all).inserted .style ((make page all).position .script) ++ before, gap, ?_,
      near⟩
    rw [inserts, parts]
    simp only [List.append_assoc]
  | style =>
    refine ⟨before, gap ++ (make page all).inserted .script ((make page all).position .style), ?_,
      ?_⟩
    · rw [inserts, parts, List.append_assoc]
    · intro l here
      obtain ⟨_, script⟩ := position_place all tidy .script
      cases here
      rw [inserted_of_ne (Ne.symm (place.apart script)), List.append_nil]
      exact near l rfl

theorem lands {kind : Kind} (chosen : (make page all).chosen kind ≠ []) :
    ∃ landmark i front back, Place page kind landmark i ∧
      (make page all).Lands kind landmark i front back := by
  have formed : (make page all).marks.WellFormed (make page all).page := scan_marks_wellFormed page
  obtain ⟨landmark, place⟩ := position_place all tidy kind
  obtain ⟨before, gap, put, near⟩ := inserts_landmark all tidy chosen place
  generalize position : (make page all).position kind = i at place put near
  have inside : i ≤ page.length := position ▸ position_le formed kind
  refine ⟨landmark, i, (make page all).trace 0 i ++ before.map (none, ·),
    gap.map (none, ·) ++ (make page all).rest i, place, ?_, ?_, ?_, ?_⟩
  · rw [traced_eq (p := make page all) inside, put, List.map_append, List.map_append]
    simp only [List.append_assoc]
  · intro x s member
    rcases List.mem_append.mp member with old | new
    · exact (mem_trace old).2
    · exact absurd new not_mem_put
  · intro x s member
    rcases List.mem_append.mp member with new | old
    · exact absurd new not_mem_put
    · exact mem_rest old
  · intro l here
    cases here
    have counts := place.counts
    have bound := position_lt counts.named.bracket
    have ahead : i < tagStop page l i := by
      rw [tagStop]
      omega
    refine ⟨gap, (make page all).trace (tagStop page l i) (page.length + 1), ?_, near l rfl⟩
    rw [rest_copy (p := make page all) ahead (Nat.min_le_right _ _) (tag_spared all counts)
      (tag_silent all tidy counts), List.append_assoc]
    rfl

end Landing

end Plan

namespace Assets

/-- The references stand at the landmarks: that to the styles in front of the first `</head>`, that
    to the scripts in front of the last `</body>`, or as near as the page allows. -/
theorem ofText_lands {page : Text} (tidy : Markup.Tidy page) (all : Bool) :
    (ofText page all).markup = (Plan.make page all).traced.map Prod.snd ∧
      ∀ kind, (ofText page all).textOf kind ≠ none → ∃ landmark i front back,
        Markup.Place page kind landmark i ∧
          (Plan.make page all).Lands kind landmark i front back := by
  refine ⟨Plan.markup_traced (p := .make page all) (Markup.scan_marks_wellFormed page), ?_⟩
  intro kind extracted
  rw [ofText, Plan.textOf_assets, ne_eq, Plan.text_none_iff] at extracted
  exact Plan.lands all tidy extracted

def headedPage : Text :=
  "<html><head><style>a</style>\n  </HEAD><body>\n<script>b</script></body>\n</body ></html>"

theorem ofText_lands_headedPage : Markup.Tidy headedPage ∧
    (ofText headedPage false).markup = (Plan.make headedPage false).traced.map Prod.snd ∧
    ∀ kind, ∃ landmark i front back, Markup.Place headedPage kind landmark i ∧
      (Plan.make headedPage false).Lands kind landmark i front back := by
  have tidy : Markup.Tidy headedPage := by
    constructor
    all_goals decide +kernel
  have extracted : ∀ kind, (ofText headedPage false).textOf kind ≠ none := by
    intro kind
    cases kind <;> decide +kernel
  obtain ⟨markup, landed⟩ := ofText_lands tidy false
  exact ⟨tidy, markup, fun kind => landed kind (extracted kind)⟩

end Assets

end Unbundle
