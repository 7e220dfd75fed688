import Mathlib.Data.List.Basic
import Unbundle.Markup.Edit

namespace Unbundle

theorem Text.slice_succ (page : Text) (start stop : Nat) :
    page.slice start (stop + 1) =
      page.slice start stop ++ if start ≤ stop then page[stop]?.toList else [] := by
  unfold Text.slice
  by_cases ahead : start ≤ stop
  · rw [if_pos ahead, Nat.succ_sub ahead, List.take_add_one, List.getElem?_drop,
      Nat.add_sub_of_le ahead]
  · rw [if_neg ahead, List.append_nil, show stop + 1 - start = stop - start by omega]

theorem Text.slice_eq_flatMap (page : Text) (cursor : Nat) {base : Nat} (reached : base ≤ cursor)
    (count : Nat) :
    page.slice cursor (base + count) =
      (List.range' base count).flatMap fun i => if cursor ≤ i then page[i]?.toList else [] := by
  induction count with
  | zero =>
    have empty : base + 0 - cursor = 0 := by omega
    simp only [Text.slice, empty, List.take_zero, List.range'_zero, List.flatMap_nil]
  | succ count ih =>
    rw [List.range'_1_concat, List.flatMap_append, ← ih, List.flatMap_singleton]
    exact Text.slice_succ page cursor (base + count)

theorem range'_parts {i j k : Nat} (first : i ≤ j) (second : j ≤ k) :
    List.range' i (j - i) ++ List.range' j (k - j) = List.range' i (k - i) := by
  have parts := @List.range'_append_1 i (j - i) (k - j)
  rwa [Nat.add_sub_of_le first, show j - i + (k - j) = k - i by omega] at parts

namespace Edit

structure Fits (page : Text) (e : Edit) : Prop where
  ordered : e.start ≤ e.stop
  inside : e.start ≤ page.length

def Covers (e : Edit) (i : Nat) : Prop := e.start ≤ i ∧ i < e.stop

instance (e : Edit) (i : Nat) : Decidable (e.Covers i) :=
  inferInstanceAs (Decidable (e.start ≤ i ∧ i < e.stop))

/-- The replacements written at a position, in the order of the edits. -/
def due (es : List Edit) (i : Nat) : Text := (es.filter (·.start = i)).flatMap Edit.replacement

def kept (page : Text) (es : List Edit) (i : Nat) : Text :=
  if ∀ e ∈ es, ¬ e.Covers i then page[i]?.toList else []

theorem due_cons (e : Edit) (es : List Edit) (i : Nat) :
    due (e :: es) i = (if e.start = i then e.replacement else []) ++ due es i := by
  unfold due
  by_cases here : e.start = i
  · rw [List.filter_cons_of_pos (by simpa using here), if_pos here, List.flatMap_cons]
  · rw [List.filter_cons_of_neg (by simpa using here), if_neg here, List.nil_append]

theorem due_append (es fs : List Edit) (i : Nat) : due (es ++ fs) i = due es i ++ due fs i := by
  rw [due, due, due, List.filter_append, List.flatMap_append]

theorem due_eq_nil {es : List Edit} {i : Nat}
    (silent : ∀ e ∈ es, e.start = i → e.replacement = []) : due es i = [] := by
  apply List.flatMap_eq_nil_iff.mpr
  intro e member
  obtain ⟨found, here⟩ := List.mem_filter.mp member
  exact silent e found (by simpa using here)

theorem kept_congr (page : Text) {es fs : List Edit} (same : ∀ e, e ∈ es ↔ e ∈ fs) (i : Nat) :
    kept page es i = kept page fs i := by
  simp only [kept, same]

theorem kept_cons (page : Text) (e : Edit) (es : List Edit) (i : Nat) :
    kept page (e :: es) i = if e.Covers i then [] else kept page es i := by
  unfold kept
  by_cases covered : e.Covers i
  · rw [if_pos covered, if_neg]
    intro spared
    exact spared e List.mem_cons_self covered
  · simp only [List.forall_mem_cons, covered, not_false_eq_true, true_and, if_false]

def read (page : Text) (cursor : Nat) (es : List Edit) (i : Nat) : Text :=
  due es i ++ if cursor ≤ i then kept page es i else []

theorem read_before (page : Text) (cursor : Nat) {es : List Edit} {i : Nat}
    (later : ∀ e ∈ es, i < e.start) :
    read page cursor es i = if cursor ≤ i then page[i]?.toList else [] := by
  have none : due es i = [] := due_eq_nil fun e member here =>
    absurd here (Nat.ne_of_gt (later e member))
  have spared : ∀ e ∈ es, ¬ e.Covers i := fun e member covered =>
    Nat.not_le_of_lt (later e member) covered.1
  rw [read, none, kept, if_pos spared, List.nil_append]

theorem read_cons (page : Text) (cursor : Nat) (e : Edit) (es : List Edit) {i : Nat}
    (reached : e.start ≤ i) :
    read page cursor (e :: es) i =
      (if e.start = i then e.replacement else []) ++ read page (max cursor e.stop) es i := by
  have spared : (if cursor ≤ i then kept page (e :: es) i else []) =
      if max cursor e.stop ≤ i then kept page es i else [] := by
    rw [kept_cons]
    by_cases beyond : e.stop ≤ i
    · have uncovered : ¬ e.Covers i := fun covered => Nat.not_lt_of_le beyond covered.2
      rw [if_neg uncovered]
      congr 1
      apply propext
      omega
    · have covered : e.Covers i := ⟨reached, Nat.lt_of_not_le beyond⟩
      have short : ¬ max cursor e.stop ≤ i := by omega
      rw [if_pos covered, if_neg short, ite_self]
  rw [read, read, due_cons, spared, List.append_assoc]

theorem splice_from (page : Text) {es : List Edit}
    (sorted : es.Pairwise fun a b => a.start ≤ b.start) (fits : ∀ e ∈ es, e.Fits page)
    {base cursor : Nat} (reached : base ≤ cursor) (ahead : ∀ e ∈ es, base ≤ e.start) :
    splice page cursor es =
      (List.range' base (page.length + 1 - base)).flatMap (read page cursor es) := by
  -- `base` is the next position to read. The cursor is ahead of it inside of a span, where edits
  -- may still begin.
  induction es generalizing base cursor with
  | nil =>
    have whole : page.slice cursor (base + (page.length + 1 - base)) = page.drop cursor := by
      apply List.take_of_length_le
      rw [List.length_drop]
      omega
    rw [splice, ← whole, Text.slice_eq_flatMap page cursor reached]
    apply List.flatMap_congr
    intro i _
    exact (read_before page cursor (by simp)).symm
  | cons e es ih =>
    obtain ⟨first, sorted⟩ := List.pairwise_cons.mp sorted
    obtain ⟨fit, fits⟩ := List.forall_mem_cons.mp fits
    have start := ahead e List.mem_cons_self
    have inside := fit.inside
    have forward := fit.ordered
    have rest := ih sorted fits (show e.start ≤ max cursor e.stop by omega) first
    have before : page.slice cursor e.start =
        (List.range' base (e.start - base)).flatMap (read page cursor (e :: es)) := by
      have sliced := Text.slice_eq_flatMap page cursor reached (e.start - base)
      rw [Nat.add_sub_of_le start] at sliced
      rw [sliced]
      apply List.flatMap_congr
      intro i member
      have near := (List.mem_range'_1.mp member).2
      refine (read_before page cursor ?_).symm
      intro e' member'
      rcases List.mem_cons.mp member' with rfl | member'
      · omega
      · have behind := first e' member'
        omega
    have behind : e.replacement ++ splice page (max cursor e.stop) es =
        (List.range' e.start (page.length + 1 - e.start)).flatMap (read page cursor (e :: es)) := by
      rw [rest, show page.length + 1 - e.start = (page.length - e.start) + 1 by omega,
        List.range'_succ, List.flatMap_cons, List.flatMap_cons,
        read_cons page cursor e es (Nat.le_refl _), if_pos rfl, List.append_assoc]
      congr 2
      apply List.flatMap_congr
      intro i member
      have beyond := (List.mem_range'_1.mp member).1
      rw [read_cons page cursor e es (by omega), if_neg (by omega), List.nil_append]
    rw [splice, List.append_assoc, before, behind, ← List.flatMap_append,
      range'_parts start (by omega)]

theorem le_total (a b : Edit) : (le a b || le b a) = true := by
  simp only [le, Bool.or_eq_true, Bool.and_eq_true, decide_eq_true_eq, beq_iff_eq]
  omega

theorem le_trans (a b c : Edit) (left : le a b = true) (right : le b c = true) :
    le a c = true := by
  simp only [le, Bool.or_eq_true, Bool.and_eq_true, decide_eq_true_eq, beq_iff_eq] at *
  omega

theorem start_le_of_le {a b : Edit} (ordered : le a b = true) : a.start ≤ b.start := by
  simp only [le, Bool.or_eq_true, Bool.and_eq_true, decide_eq_true_eq, beq_iff_eq] at ordered
  omega

def hasSpan (start stop : Nat) (e : Edit) : Bool := e.start = start && e.stop = stop

theorem filter_mergeSort (es : List Edit) (start stop : Nat) :
    (es.mergeSort le).filter (hasSpan start stop) = es.filter (hasSpan start stop) := by
  -- The sort is stable: edits of one span stand in the sorted list in their old order, and no
  -- others of that span are there.
  have alike : (es.filter (hasSpan start stop)).Pairwise fun a b => le a b = true := by
    apply List.pairwise_of_forall_mem_list
    intro a left b right
    have a_span := List.of_mem_filter left
    have b_span := List.of_mem_filter right
    simp only [hasSpan, Bool.and_eq_true, decide_eq_true_eq] at a_span b_span
    simp only [le, a_span, b_span, Nat.le_refl, decide_true, beq_self_eq_true, Bool.and_self,
      Bool.or_true]
  have within := List.sublist_mergeSort le_trans le_total alike List.filter_sublist
  have filtered := within.filter (hasSpan start stop)
  rw [List.filter_filter] at filtered
  simp only [Bool.and_self] at filtered
  have same_length := ((List.mergeSort_perm es le).filter (hasSpan start stop)).length_eq
  exact (filtered.eq_of_length same_length.symm).symm

theorem due_eq_of_hasSpan {es : List Edit}
    (plain : ∀ e ∈ es, e.replacement = [] ∨ e.stop = e.start) (i : Nat) :
    due es i = (es.filter (hasSpan i i)).flatMap Edit.replacement := by
  induction es with
  | nil => rfl
  | cons e es ih =>
    obtain ⟨alone, plain⟩ := List.forall_mem_cons.mp plain
    rw [due_cons, ih plain]
    by_cases here : hasSpan i i e = true
    · have start : e.start = i := by
        simp only [hasSpan, Bool.and_eq_true, decide_eq_true_eq] at here
        exact here.1
      rw [List.filter_cons_of_pos here, if_pos start, List.flatMap_cons]
    · rw [List.filter_cons_of_neg here]
      split
      · rename_i start
        rcases alone with empty | point
        · rw [empty, List.nil_append]
        · exact absurd (by simp [hasSpan, point, start]) here
      · rw [List.nil_append]

theorem due_mergeSort {es : List Edit} (plain : ∀ e ∈ es, e.replacement = [] ∨ e.stop = e.start)
    (i : Nat) : due (es.mergeSort le) i = due es i := by
  have plainSorted : ∀ e ∈ es.mergeSort le, e.replacement = [] ∨ e.stop = e.start :=
    fun e member => plain e (List.mem_mergeSort.mp member)
  rw [due_eq_of_hasSpan plainSorted, due_eq_of_hasSpan plain, filter_mergeSort]

/-- The spliced page reads, at each position, what is due there and then the symbol of the page
    if no edit takes it out. -/
theorem applyAll_eq (page : Text) {es : List Edit} (fits : ∀ e ∈ es, e.Fits page) :
    applyAll page es =
      (List.range (page.length + 1)).flatMap fun i =>
        due (es.mergeSort le) i ++ kept page es i := by
  have members : ∀ e, e ∈ es.mergeSort le ↔ e ∈ es := fun e => List.mem_mergeSort
  have sorted : (es.mergeSort le).Pairwise fun a b => a.start ≤ b.start :=
    (List.pairwise_mergeSort le_trans le_total es).imp start_le_of_le
  rw [applyAll, splice_from page sorted (fun e member => fits e ((members e).mp member))
    (Nat.le_refl 0) (fun e _ => Nat.zero_le e.start), List.range_eq_range']
  apply List.flatMap_congr
  intro i _
  rw [read, if_pos (Nat.zero_le i), kept_congr page members]

end Edit

end Unbundle
