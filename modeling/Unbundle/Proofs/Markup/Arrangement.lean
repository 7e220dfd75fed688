import Mathlib.Data.List.Nodup
import Mathlib.Data.Prod.Lex
import Unbundle.Proofs.Markup.Splice

namespace Unbundle.Edit

/-- What an edited page is made of: the symbol at a position of the old page, or the text of an
    edit. -/
inductive Item
  | kept (i : Nat)
  | put (e : Edit)

namespace Item

def kept? : Item → Option Nat
  | kept i => some i
  | put _ => none

def put? : Item → Option Edit
  | kept _ => none
  | put e => some e

def text (page : Text) : Item → Text
  | kept i => page[i]?.toList
  | put e => e.replacement

/-- The text of an edit stands behind the symbols in front of the edit's start, and in front of
    the others. -/
def Precedes : Item → Item → Prop
  | kept i, put e => i < e.start
  | put e, kept i => e.start ≤ i
  | kept _, kept _ => True
  | put _, put _ => True

def place : Item → Nat
  | kept i => i
  | put e => e.start

theorem precedes_of_place {x y : Item} (ahead : x.place < y.place) : Precedes x y := by
  cases x with
  | kept i =>
    cases y with
    | kept j => trivial
    | put e => exact ahead
  | put e =>
    cases y with
    | kept j => exact Nat.le_of_lt ahead
    | put f => trivial

@[simp]
theorem kept?_eq_some {x : Item} {i : Nat} : x.kept? = some i ↔ x = kept i := by
  cases x <;> simp [kept?]

@[simp]
theorem put?_eq_some {x : Item} {e : Edit} : x.put? = some e ↔ x = put e := by
  cases x <;> simp [put?]

theorem mem_kept? {items : List Item} {i : Nat} : i ∈ items.filterMap kept? ↔ kept i ∈ items := by
  simp

theorem mem_put? {items : List Item} {e : Edit} : e ∈ items.filterMap put? ↔ put e ∈ items := by
  simp

end Item

def span (e : Edit) : ℕ ×ₗ ℕ := toLex (e.start, e.stop)

/-- What is in no span stays, in the order of the page. Each edit's text is put in once, in the
    order of the spans, and where spans are the same in the order of the list. -/
structure Arranged (page : Text) (es : List Edit) (items : List Item) : Prop where
  stays : items.filterMap Item.kept? =
    (List.range page.length).filter fun i => ∀ e ∈ es, ¬ e.Covers i
  once : (items.filterMap Item.put?).Perm es
  ordered : (items.filterMap Item.put?).Pairwise fun a b => a.span ≤ b.span
  ties : ∀ s, (items.filterMap Item.put?).filter (·.span = s) = es.filter (·.span = s)
  placed : items.Pairwise Item.Precedes

theorem le_iff_span {a b : Edit} : le a b ↔ a.span ≤ b.span := by
  rw [span, span, Prod.Lex.toLex_le_toLex]
  simp [le]

theorem span_eq_iff {e : Edit} {s : ℕ ×ₗ ℕ} :
    e.span = s ↔ e.start = (ofLex s).1 ∧ e.stop = (ofLex s).2 :=
  Prod.ext_iff

theorem filter_span (es : List Edit) (s : ℕ ×ₗ ℕ) :
    es.filter (·.span = s) = es.filter (hasSpan (ofLex s).1 (ofLex s).2) := by
  apply List.filter_congr
  intro e _
  rw [decide_eq_decide.mpr span_eq_iff, Bool.decide_and, hasSpan]

def itemsAt (page : Text) (es : List Edit) (i : Nat) : List Item :=
  (es.filter (·.start = i)).map .put ++
    ([i].filter fun i => i < page.length ∧ ∀ e ∈ es, ¬ e.Covers i).map .kept

def itemsOf (page : Text) (es : List Edit) : List Item :=
  (List.range (page.length + 1)).flatMap (itemsAt page es)

section Items

variable {page : Text} {es : List Edit}

theorem text_itemsAt (page : Text) (es : List Edit) (i : Nat) :
    (itemsAt page es i).flatMap (Item.text page) = due es i ++ kept page es i := by
  have puts : ((es.filter (·.start = i)).map Item.put).flatMap (Item.text page) = due es i :=
    List.flatMap_map ..
  rw [itemsAt, List.flatMap_append, puts, kept, List.filter_cons, List.filter_nil]
  by_cases short : i < page.length
  · by_cases stays : ∀ e ∈ es, ¬ e.Covers i
    · rw [if_pos (decide_eq_true ⟨short, stays⟩), if_pos stays]
      exact congrArg _ (List.flatMap_singleton ..)
    · rw [if_neg (by simp [stays]), if_neg stays]
      rfl
  · have nothing : page[i]? = none := List.getElem?_eq_none (Nat.le_of_not_lt short)
    rw [if_neg (by simp [short]), nothing, Option.toList_none, ite_self]
    rfl

theorem put_itemsAt (page : Text) (es : List Edit) (i : Nat) :
    (itemsAt page es i).filterMap Item.put? = es.filter (·.start = i) := by
  rw [itemsAt, List.filterMap_append, List.filterMap_map, List.filterMap_map]
  simp [Function.comp_def, Item.put?]

theorem kept_itemsAt (page : Text) (es : List Edit) (i : Nat) :
    (itemsAt page es i).filterMap Item.kept? =
      [i].filter fun i => i < page.length ∧ ∀ e ∈ es, ¬ e.Covers i := by
  rw [itemsAt, List.filterMap_append, List.filterMap_map, List.filterMap_map]
  simp [Function.comp_def, Item.kept?]

theorem place_of_mem {i : Nat} {x : Item} (member : x ∈ itemsAt page es i) : x.place = i := by
  rcases List.mem_append.mp member with member | member
  · obtain ⟨e, found, rfl⟩ := List.mem_map.mp member
    exact of_decide_eq_true (List.mem_filter.mp found).2
  · obtain ⟨k, found, rfl⟩ := List.mem_map.mp member
    exact List.mem_singleton.mp (List.mem_filter.mp found).1

theorem filter_start_succ (sorted : es.Pairwise fun a b => a.start ≤ b.start) (n : Nat) :
    es.filter (·.start < n + 1) = es.filter (·.start < n) ++ es.filter (·.start = n) := by
  induction es with
  | nil => rfl
  | cons e es ih =>
    obtain ⟨first, sorted⟩ := List.pairwise_cons.mp sorted
    rw [List.filter_cons, List.filter_cons, List.filter_cons, ih sorted]
    rcases Nat.lt_trichotomy e.start n with before | here | behind
    · simp [before, Nat.lt_succ_of_lt before, Nat.ne_of_lt before]
    · have none : es.filter (·.start < n) = [] := by
        apply List.filter_eq_nil_iff.mpr
        intro e' member early
        have start := first e' member
        have before := of_decide_eq_true early
        omega
      simp [here, none]
    · simp [Nat.lt_asymm behind, Nat.ne_of_gt behind, Nat.not_lt_of_le behind]

theorem flatMap_filter_start (sorted : es.Pairwise fun a b => a.start ≤ b.start) (n : Nat) :
    ((List.range n).flatMap fun i => es.filter (·.start = i)) = es.filter (·.start < n) := by
  induction n with
  | zero => simp
  | succ n ih =>
    rw [List.range_succ, List.flatMap_append, ih, List.flatMap_singleton,
      filter_start_succ sorted]

theorem put_itemsOf (page : Text) (sorted : es.Pairwise fun a b => a.start ≤ b.start)
    (inside : ∀ e ∈ es, e.start ≤ page.length) :
    (itemsOf page es).filterMap Item.put? = es := by
  simp only [itemsOf, List.filterMap_flatMap, put_itemsAt]
  rw [flatMap_filter_start sorted, List.filter_eq_self.mpr]
  exact fun e member => decide_eq_true (Nat.lt_succ_of_le (inside e member))

theorem kept_itemsOf (page : Text) (es : List Edit) :
    (itemsOf page es).filterMap Item.kept? =
      (List.range page.length).filter fun i => ∀ e ∈ es, ¬ e.Covers i := by
  simp only [itemsOf, List.filterMap_flatMap, kept_itemsAt]
  rw [← List.filter_flatMap, List.flatMap_singleton', List.range_succ, List.filter_append,
    List.filter_cons_of_neg (by simp), List.filter_nil, List.append_nil]
  apply List.filter_congr
  intro i member
  simp [List.mem_range.mp member]

theorem placed_itemsOf (page : Text) (es : List Edit) :
    (itemsOf page es).Pairwise Item.Precedes := by
  refine List.pairwise_flatMap.mpr ⟨?_, ?_⟩
  · intro i _
    refine List.pairwise_append.mpr ⟨?_, ?_, ?_⟩
    · exact List.pairwise_map.mpr (List.pairwise_of_forall fun _ _ => trivial)
    · exact List.pairwise_map.mpr (List.pairwise_of_forall fun _ _ => trivial)
    · intro x front y behind
      obtain ⟨e, found, rfl⟩ := List.mem_map.mp front
      obtain ⟨k, here, rfl⟩ := List.mem_map.mp behind
      have start : e.start = i := of_decide_eq_true (List.mem_filter.mp found).2
      have same : k = i := List.mem_singleton.mp (List.mem_filter.mp here).1
      exact Nat.le_of_eq (start.trans same.symm)
  · refine List.pairwise_lt_range.imp ?_
    intro i j ahead x front y behind
    apply Item.precedes_of_place
    rwa [place_of_mem front, place_of_mem behind]

end Items

theorem arranged_itemsOf (page : Text) {es : List Edit} (fits : ∀ e ∈ es, e.Fits page) :
    Arranged page es (itemsOf page (es.mergeSort le)) := by
  have members : ∀ e, e ∈ es.mergeSort le ↔ e ∈ es := fun e => List.mem_mergeSort
  have sorted := List.pairwise_mergeSort le_trans le_total es
  have puts := put_itemsOf page (sorted.imp start_le_of_le)
    fun e member => (fits e ((members e).mp member)).inside
  constructor
  · simp only [kept_itemsOf, members]
  · rw [puts]
    exact List.mergeSort_perm es le
  · rw [puts]
    exact sorted.imp le_iff_span.mp
  · intro s
    rw [puts, filter_span, filter_span, filter_mergeSort]
  · exact placed_itemsOf page (es.mergeSort le)

theorem applyAll_text (page : Text) {es : List Edit} (fits : ∀ e ∈ es, e.Fits page) :
    applyAll page es = (itemsOf page (es.mergeSort le)).flatMap (Item.text page) := by
  have members : ∀ e, e ∈ es ↔ e ∈ es.mergeSort le := fun e => List.mem_mergeSort.symm
  rw [applyAll_eq page fits, itemsOf, List.flatMap_assoc]
  apply List.flatMap_congr
  intro i _
  rw [text_itemsAt, kept_congr page members]

section Ties

variable {xs ys : List Edit}

theorem mem_of_ties (ties : ∀ s, xs.filter (·.span = s) = ys.filter (·.span = s)) {e : Edit}
    (member : e ∈ xs) : e ∈ ys := by
  have found : e ∈ xs.filter (·.span = e.span) :=
    List.mem_filter.mpr ⟨member, decide_eq_true rfl⟩
  rw [ties] at found
  exact List.mem_of_mem_filter found

theorem head_le_of_ties {a b : Edit} (sorted : (a :: xs).Pairwise fun a b => a.span ≤ b.span)
    (ties : ∀ s, (a :: xs).filter (·.span = s) = (b :: ys).filter (·.span = s)) :
    a.span ≤ b.span := by
  have member : b ∈ a :: xs := mem_of_ties (fun s => (ties s).symm) List.mem_cons_self
  rcases List.mem_cons.mp member with same | later
  · rw [same]
  · exact (List.pairwise_cons.mp sorted).1 b later

theorem eq_of_ties (left : xs.Pairwise fun a b => a.span ≤ b.span)
    (right : ys.Pairwise fun a b => a.span ≤ b.span)
    (ties : ∀ s, xs.filter (·.span = s) = ys.filter (·.span = s)) : xs = ys := by
  induction xs generalizing ys with
  | nil =>
    cases ys with
    | nil => rfl
    | cons b ys => exact absurd (mem_of_ties (fun s => (ties s).symm) List.mem_cons_self) nofun
  | cons a xs ih =>
    cases ys with
    | nil => exact absurd (mem_of_ties ties List.mem_cons_self) nofun
    | cons b ys =>
      -- Each head is in the other list, so that neither span can be behind the other.
      have level : a.span = b.span :=
        le_antisymm (head_le_of_ties left ties) (head_le_of_ties right fun s => (ties s).symm)
      have heads := ties b.span
      rw [List.filter_cons_of_pos (by simpa using level),
        List.filter_cons_of_pos (by simp)] at heads
      obtain rfl := (List.cons.inj heads).1
      have tails : ∀ s, xs.filter (·.span = s) = ys.filter (·.span = s) := by
        intro s
        have whole := ties s
        rw [List.filter_cons, List.filter_cons] at whole
        split at whole
        · exact (List.cons.inj whole).2
        · exact whole
      rw [ih left.of_cons right.of_cons tails]

end Ties

namespace Item

variable {xs ys : List Item}

/-- Of a symbol and a text, the same one is in front in every arrangement. -/
theorem not_crossed {i : Nat} {e : Edit} {is : List Nat} {es : List Edit}
    (left : (kept i :: xs).Pairwise Precedes) (right : (put e :: ys).Pairwise Precedes)
    (puts : xs.filterMap put? = e :: es) (keeps : ys.filterMap kept? = i :: is) : False := by
  have later : put e ∈ xs := mem_put?.mp (puts ▸ List.mem_cons_self)
  have stays : kept i ∈ ys := mem_kept?.mp (keeps ▸ List.mem_cons_self)
  have before : i < e.start := (List.pairwise_cons.mp left).1 (put e) later
  have behind : e.start ≤ i := (List.pairwise_cons.mp right).1 (kept i) stays
  omega

theorem eq_of_precedes (left : xs.Pairwise Precedes) (right : ys.Pairwise Precedes)
    (keeps : xs.filterMap kept? = ys.filterMap kept?)
    (puts : xs.filterMap put? = ys.filterMap put?) : xs = ys := by
  induction xs generalizing ys with
  | nil =>
    match ys with
    | [] => rfl
    | kept j :: ys => cases keeps
    | put e :: ys => cases puts
  | cons x xs ih =>
    match x, ys with
    | kept i, [] => cases keeps
    | put e, [] => cases puts
    | kept i, kept j :: ys =>
      obtain ⟨rfl, later⟩ := List.cons.inj keeps
      rw [ih left.of_cons right.of_cons later puts]
    | put e, put f :: ys =>
      obtain ⟨rfl, later⟩ := List.cons.inj puts
      rw [ih left.of_cons right.of_cons keeps later]
    -- Else the symbol and the text would each stand in front of the other somewhere.
    | kept i, put e :: ys => exact (not_crossed left right puts keeps.symm).elim
    | put e, kept i :: ys => exact (not_crossed right left puts.symm keeps).elim

end Item

theorem filter_span_of_perm {es fs : List Edit} (perm : es.Perm fs) (apart : (es.map span).Nodup)
    (s : ℕ ×ₗ ℕ) : es.filter (·.span = s) = fs.filter (·.span = s) := by
  have sole : ∀ a b, a ∈ es.filter (·.span = s) → b ∈ fs.filter (·.span = s) → a = b := by
    intro a b left right
    obtain ⟨a_found, a_span⟩ := List.mem_filter.mp left
    obtain ⟨b_found, b_span⟩ := List.mem_filter.mp right
    have level : a.span = b.span := (of_decide_eq_true a_span).trans (of_decide_eq_true b_span).symm
    exact List.inj_on_of_nodup_map apart a_found (perm.mem_iff.mpr b_found) level
  exact List.Perm.eq_of_pairwise (fun a b left right _ _ => sole a b left right)
    (List.pairwise_of_forall fun _ _ => trivial) (List.pairwise_of_forall fun _ _ => trivial)
    (perm.filter _)

namespace Arranged

variable {page : Text} {es fs : List Edit} {items others : List Item}

theorem unique (left : Arranged page es items) (right : Arranged page es others) :
    items = others := by
  refine Item.eq_of_precedes left.placed right.placed (left.stays.trans right.stays.symm) ?_
  exact eq_of_ties left.ordered right.ordered fun s => (left.ties s).trans (right.ties s).symm

/-- Where no span is taken twice, the order in which the edits are given does not count. -/
theorem reordered (arranged : Arranged page es items) (perm : es.Perm fs)
    (apart : (es.map span).Nodup) : Arranged page fs items where
  stays := by simp only [arranged.stays, perm.mem_iff]
  once := arranged.once.trans perm
  ordered := arranged.ordered
  ties s := (arranged.ties s).trans (filter_span_of_perm perm apart s)
  placed := arranged.placed

end Arranged

/-- The edits, in whatever order and however their spans overlap, have one arrangement, and it is
    written. Edits of different spans may be given in another order. -/
theorem applyAll_arranges (page : Text) {es : List Edit} (fits : ∀ e ∈ es, e.Fits page) :
    (∃! items, Arranged page es items) ∧
    (∀ items, Arranged page es items → applyAll page es = items.flatMap (Item.text page)) ∧
    ∀ fs, es.Perm fs → (es.map span).Nodup → applyAll page fs = applyAll page es := by
  have arranged := arranged_itemsOf page fits
  refine ⟨⟨_, arranged, fun others other => other.unique arranged⟩, ?_, ?_⟩
  · intro items other
    rw [applyAll_text page fits, arranged.unique other]
  · intro fs perm apart
    have also : ∀ e ∈ fs, e.Fits page := fun e member => fits e (perm.mem_iff.mpr member)
    have same := (arranged.reordered perm apart).unique (arranged_itemsOf page also)
    rw [applyAll_text page fits, applyAll_text page also, same]

def overlapping : List Edit := [⟨2, 5, "X"⟩, ⟨0, 3, "Y"⟩, .insertion 2 "Z"]

def overlappingItems : List Item :=
  [.put ⟨0, 3, "Y"⟩, .put (.insertion 2 "Z"), .put ⟨2, 5, "X"⟩, .kept 5, .kept 6]

theorem applyAll_arranges_of_overlapping :
    (∀ e ∈ overlapping, e.Fits "abcdefg") ∧ (overlapping.map span).Nodup ∧
    Arranged "abcdefg" overlapping overlappingItems ∧
    applyAll "abcdefg" overlapping = overlappingItems.flatMap (Item.text "abcdefg") ∧
    applyAll "abcdefg" overlapping.reverse = "YZXfg" := by
  have bounds : ∀ e ∈ overlapping, e.start ≤ e.stop ∧ e.start ≤ ("abcdefg" : Text).length := by
    decide
  have fits : ∀ e ∈ overlapping, e.Fits "abcdefg" :=
    fun e member => ⟨(bounds e member).1, (bounds e member).2⟩
  have sorted : overlapping.mergeSort le = [⟨0, 3, "Y"⟩, .insertion 2 "Z", ⟨2, 5, "X"⟩] := by
    simp [overlapping, le, insertion, List.mergeSort]
  have laid : itemsOf "abcdefg" (overlapping.mergeSort le) = overlappingItems := by
    rw [sorted]
    rfl
  have arranged : Arranged "abcdefg" overlapping overlappingItems :=
    laid ▸ arranged_itemsOf "abcdefg" fits
  obtain ⟨_, text, reordered⟩ := applyAll_arranges "abcdefg" fits
  have apart : (overlapping.map span).Nodup := by decide
  have written := text overlappingItems arranged
  refine ⟨fits, apart, arranged, written, ?_⟩
  rw [reordered _ (List.reverse_perm overlapping).symm apart, written]
  decide

end Unbundle.Edit
