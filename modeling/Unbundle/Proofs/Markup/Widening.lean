import Mathlib.Data.List.TakeWhile
import Unbundle.Markup.Edit
import Unbundle.Proofs.Markup.Placement

namespace Unbundle

theorem Text.not_mem_of_isBlank {t : Text} {s : Sym} (blank : t.isBlank) (ink : s.isBlank = false) :
    s ∉ t := by
  intro member
  rw [List.all_eq_true.mp blank s member] at ink
  cases ink

namespace Markup

variable {page : Text}

theorem lead_isSuffix (page : Text) (pos : Nat) : lead page pos <:+ page.take pos := by
  have front := List.takeWhile_prefix (l := (page.take pos).reverse) (· != .scalar '\n')
  have turned := List.reverse_suffix.mpr front
  rw [List.reverse_reverse] at turned
  exact turned

theorem mem_lead {pos i : Nat} {s : Sym} (near : pos - (lead page pos).length ≤ i)
    (before : i < pos) (stands : page[i]? = some s) : s ∈ lead page pos := by
  obtain ⟨front, parts⟩ := lead_isSuffix page pos
  have lengths := congrArg List.length parts
  rw [List.length_append, List.length_take] at lengths
  have behind : front.length ≤ i := by omega
  rw [← List.getElem?_take_of_lt before, ← parts, List.getElem?_append_right behind] at stands
  exact List.mem_of_getElem? stands

theorem newline_notMem_lead (page : Text) (pos : Nat) : Sym.scalar '\n' ∉ lead page pos := by
  intro member
  have kept := List.mem_takeWhile_imp (List.mem_reverse.mp member)
  exact absurd kept (by decide)

theorem trail_isPrefix (page : Text) (pos : Nat) : trail page pos <+: page.drop pos := by
  unfold trail
  dsimp only
  split
  · exact List.take_prefix _ _
  · exact List.prefix_refl _

theorem trail_stop_le {pos : Nat} (inside : pos ≤ page.length) :
    pos + (trail page pos).length ≤ page.length := by
  have bound := (trail_isPrefix page pos).length_le
  rw [List.length_drop] at bound
  omega

theorem mem_trail {pos i : Nat} {s : Sym} (behind : pos ≤ i)
    (near : i < pos + (trail page pos).length) (stands : page[i]? = some s) :
    s ∈ trail page pos := by
  obtain ⟨rest, parts⟩ := trail_isPrefix page pos
  have short : i - pos < (trail page pos).length := by omega
  have shifted : (page.drop pos)[i - pos]? = some s := by
    rw [List.getElem?_drop, Nat.add_sub_of_le behind]
    exact stands
  rw [← parts, List.getElem?_append_left short] at shifted
  exact List.mem_of_getElem? shifted

theorem trail_ends {pos : Nat} (inside : pos ≤ page.length) :
    pos + (trail page pos).length = page.length ∨
      page[pos + (trail page pos).length - 1]? = some (.scalar '\n') := by
  unfold trail
  dsimp only
  split
  · rename_i n found
    obtain ⟨short, newline, _⟩ := List.findIdx?_eq_some_iff_getElem.mp found
    right
    have stands := List.getElem?_eq_getElem short
    rw [beq_iff_eq.mp newline, List.getElem?_drop] at stands
    rw [List.length_take, Nat.min_eq_left short]
    exact stands
  · left
    rw [List.length_drop, Nat.add_sub_of_le inside]

/-- A span together with blanks to its sides, in front of it on one line and behind it up to
    the end of a line. -/
structure Widens (page : Text) (start stop : Nat) (span : Nat × Nat) : Prop where
  start_le : span.1 ≤ start
  le_stop : stop ≤ span.2
  inside : span.2 ≤ page.length
  lead : ∀ i s, span.1 ≤ i → i < start → page[i]? = some s → s.isBlank ∧ s ≠ .scalar '\n'
  trail : ∀ i s, stop ≤ i → i < span.2 → page[i]? = some s → s.isBlank
  ends : span.2 = stop ∨ span.2 = page.length ∨ page[span.2 - 1]? = some (.scalar '\n')

theorem lineSpan_widens {start stop : Nat} (inside : stop ≤ page.length) :
    Widens page start stop (lineSpan page start stop) := by
  unfold lineSpan
  dsimp only
  split
  · rename_i blanks
    obtain ⟨leadBlank, trailBlank⟩ := Bool.and_eq_true_iff.mp blanks
    refine ⟨Nat.sub_le _ _, Nat.le_add_right _ _, trail_stop_le inside, ?_, ?_, .inr ?_⟩
    · intro i s near before stands
      have member := mem_lead near before stands
      refine ⟨List.all_eq_true.mp leadBlank s member, ?_⟩
      intro newline
      exact newline_notMem_lead page start (newline ▸ member)
    · intro i s behind near stands
      exact List.all_eq_true.mp trailBlank s (mem_trail behind near stands)
    · exact trail_ends inside
  · refine ⟨Nat.le_refl _, Nat.le_refl _, inside, ?_, ?_, .inl rfl⟩
    · intro i s near before _
      omega
    · intro i s behind near _
      omega

/-- A blank holds no tag, and a line break parts what stands on its two sides, so that widened
    spans of blocks keep apart. -/
theorem Widens.apart {a b : Block} {left right : Nat × Nat}
    (first : Widens page a.start a.stop left) (second : Widens page b.start b.stop right)
    (formed : a.WellFormed page) (opened : b.WellFormed page) (ordered : a.stop ≤ b.start) :
    left.2 ≤ right.1 := by
  have positive : 0 < a.stop := Nat.zero_lt_of_lt formed.content_lt
  have before_tag : left.2 ≤ b.start := by
    by_contra beyond
    have blank := first.trail b.start _ ordered (by omega) opened.opened
    exact absurd blank (by decide)
  have behind_tag : a.stop ≤ right.1 := by
    by_contra beyond
    have blank := (second.lead (a.stop - 1) _ (by omega) (by omega) formed.closed).1
    exact absurd blank (by decide)
  have within_page := position_lt opened.opened
  rcases first.ends with narrow | last | newline
  · omega
  · omega
  · by_contra beyond
    have inner := second.lead (left.2 - 1) _ (by omega) (by omega) newline
    exact inner.2 rfl

theorem indented_around (page : Text) (pos : Nat) (tag : Text) :
    ∃ before behind : Text, indented page pos tag = before ++ tag ++ behind ∧ before.isBlank ∧
      behind.isBlank := by
  unfold indented
  dsimp only
  split
  · split
    · exact ⟨[], "\n", rfl, rfl, by decide⟩
    · exact ⟨[], [], (List.append_nil tag).symm, rfl, rfl⟩
  · split
    · exact ⟨[], [], (List.append_nil tag).symm, rfl, rfl⟩
    · rename_i alone
      simp only [Bool.or_eq_true, not_or, Bool.not_eq_true, Bool.not_eq_false'] at alone
      refine ⟨"    ", "\n" ++ lead page pos, by simp, by decide, ?_⟩
      rw [Text.isBlank, List.all_append, Bool.and_eq_true]
      exact ⟨by decide, alone.2⟩

theorem indented_behind_tag {pos : Nat} (inside : pos < page.length)
    (behind : page[pos - 1]? = some (.scalar '>')) (later : 0 < pos) (tag : Text) :
    indented page pos tag = tag := by
  have last : page.take pos = page.take (pos - 1) ++ [.scalar '>'] := by
    obtain ⟨short, stands⟩ := List.getElem?_eq_some_iff.mp behind
    rw [← stands, ← List.take_succ_eq_append_getElem short, Nat.sub_add_cancel later]
  have lead_ends : .scalar '>' ∈ lead page pos := by
    rw [lead, last, List.mem_reverse, List.reverse_append]
    simp
  have notBlank : (lead page pos).isBlank = false := by
    by_contra blank
    exact Text.not_mem_of_isBlank (Bool.eq_true_of_not_eq_false blank) (by decide) lead_ends
  simp [indented, notBlank, Nat.not_le_of_lt inside]

end Markup

end Unbundle
