import Mathlib.Data.List.Basic
import Unbundle.Text

namespace Unbundle.Text

section Slice

theorem slice_append_slice (page : Text) {i j k : Nat} (first : i ≤ j) (second : j ≤ k) :
    page.slice i j ++ page.slice j k = page.slice i k := by
  have split := List.take_add (l := page.drop i) (i := j - i) (j := k - j)
  rw [List.drop_drop, Nat.add_sub_of_le first, show j - i + (k - j) = k - i by omega] at split
  exact split.symm

theorem length_slice (page : Text) {i j : Nat} (inside : j ≤ page.length) :
    (page.slice i j).length = j - i := by
  rw [slice, List.length_take, List.length_drop]
  omega

theorem slice_cons (page : Text) {i j : Nat} (ahead : i < j) :
    page.slice i j = page[i]?.toList ++ page.slice (i + 1) j := by
  rw [slice, slice, ← List.drop_drop, ← List.head?_drop]
  cases page.drop i with
  | nil => simp
  | cons s rest =>
    rw [show j - i = j - (i + 1) + 1 by omega]
    rfl

theorem slice_eq_drop (page : Text) {i j : Nat} (beyond : page.length ≤ j) :
    page.slice i j = page.drop i := by
  rw [slice, List.take_of_length_le]
  rw [List.length_drop]
  omega

variable {needle page : Text}

theorem getElem?_eq_of_begins {a c : Nat} (begins : needle <+: page.drop a) (behind : a ≤ c)
    (before : c < a + needle.length) : page[c]? = needle[c - a]? := by
  obtain ⟨rest, split⟩ := begins
  rw [← Nat.add_sub_of_le behind, ← List.getElem?_drop, ← split,
    List.getElem?_append_left (by omega), Nat.add_sub_cancel_left]

theorem getElem?_of_begins {a x : Nat} {s : Sym} (begins : needle <+: page.drop a)
    (stands : needle[x]? = some s) : page[a + x]? = some s := by
  have short := (List.getElem?_eq_some_iff.mp stands).1
  rw [getElem?_eq_of_begins begins (Nat.le_add_right a x) (by omega), Nat.add_sub_cancel_left,
    stands]

theorem slice_of_begins {a x y : Nat} (begins : needle <+: page.drop a)
    (inside : y ≤ needle.length) : page.slice (a + x) (a + y) = needle.slice x y := by
  obtain ⟨rest, split⟩ := begins
  rw [slice, slice, ← List.drop_drop, ← split, Nat.add_sub_add_left]
  by_cases reached : x ≤ needle.length
  · rw [List.drop_append_of_le_length reached, List.take_append_of_le_length]
    rw [List.length_drop]
    omega
  · rw [show y - x = 0 by omega, List.take_zero, List.take_zero]

theorem prefix_drop_slice {i j x : Nat} :
    needle <+: (page.slice i j).drop x ↔
      needle <+: page.drop (i + x) ∧ needle.length ≤ j - i - x := by
  rw [slice, List.drop_take, List.drop_drop, List.prefix_take_iff]

end Slice

section Trim

variable {p : Sym → Bool} {t rest : Text} {s : Sym}

theorem takeWhile_exact (inside : ∀ s ∈ t, p s) (ends : ∀ s, rest.head? = some s → p s = false) :
    (t ++ rest).takeWhile p = t := by
  rw [List.takeWhile_append_of_pos inside]
  cases rest with
  | nil => simp
  | cons s rest => simp [ends s rfl]

theorem dropWhile_exact (inside : ∀ s ∈ t, p s) (ends : ∀ s, rest.head? = some s → p s = false) :
    (t ++ rest).dropWhile p = rest := by
  rw [List.dropWhile_append_of_pos inside]
  cases rest with
  | nil => rfl
  | cons s rest => simp [ends s rfl]

theorem trimRight_exact (inside : ∀ s ∈ rest, p s) (ends : ∀ s, t.getLast? = some s → p s = false) :
    trimRight p (t ++ rest) = t := by
  rw [trimRight, List.reverse_append, dropWhile_exact (by simpa using inside) (by simpa using ends),
    List.reverse_reverse]

theorem trimRight_append (p : Sym → Bool) (t : Text) :
    trimRight p t ++ (t.reverse.takeWhile p).reverse = t := by
  rw [trimRight, ← List.reverse_append, List.takeWhile_append_dropWhile, List.reverse_reverse]

theorem trim_between (p : Sym → Bool) (t : Text) :
    t.takeWhile p ++ trim p t ++ ((t.dropWhile p).reverse.takeWhile p).reverse = t := by
  rw [List.append_assoc, trim, trimRight_append, List.takeWhile_append_dropWhile]

theorem trim_exact (first : ∀ s, t.head? = some s → p s = false)
    (last : ∀ s, t.getLast? = some s → p s = false) : trim p t = t := by
  have front : t.dropWhile p = t := dropWhile_exact (t := []) (by simp) first
  have back : trimRight p (t ++ []) = t := trimRight_exact (by simp) last
  rw [List.append_nil] at back
  rw [trim, front, back]

theorem trim_first (first : (trim p t).head? = some s) : p s = false := by
  have stops := List.head?_dropWhile_not p t
  rw [← trimRight_append p (t.dropWhile p), List.head?_append, ← trim, first] at stops
  exact stops

theorem trim_last (last : (trim p t).getLast? = some s) : p s = false := by
  have stops := List.head?_dropWhile_not p (t.dropWhile p).reverse
  rw [trim, trimRight, List.getLast?_reverse] at last
  rw [last] at stops
  exact stops

theorem trim_subset (member : s ∈ trim p t) : s ∈ t := by
  rw [← trim_between p t]
  exact List.mem_append_left _ (List.mem_append_right _ member)

end Trim

section Copies

def copies (needle : Text) : Text → Nat
  | [] => 0
  | s :: rest => (if needle.isPrefixOf (s :: rest) then 1 else 0) + copies needle rest

variable {needle : Text}

theorem copies_append_le (needle xs ys : Text) :
    copies needle xs + copies needle ys ≤ copies needle (xs ++ ys) := by
  induction xs with
  | nil => exact Nat.le_of_eq (Nat.zero_add _)
  | cons s xs ih =>
    simp only [copies, List.cons_append]
    by_cases here : needle.isPrefixOf (s :: xs)
    · have longer : needle.isPrefixOf (s :: (xs ++ ys)) := by
        rw [List.isPrefixOf_iff_prefix] at here ⊢
        exact here.trans (List.prefix_append (s :: xs) ys)
      rw [if_pos here, if_pos longer]
      omega
    · rw [if_neg here]
      omega

theorem copies_append (xs ys : Text)
    (whole : ∀ i < xs.length, needle <+: (xs ++ ys).drop i → needle <+: xs.drop i) :
    copies needle (xs ++ ys) = copies needle xs + copies needle ys := by
  induction xs with
  | nil => exact (Nat.zero_add _).symm
  | cons s xs ih =>
    have rest := ih fun i short begins => whole (i + 1) (Nat.succ_lt_succ short) begins
    have here : needle.isPrefixOf (s :: (xs ++ ys)) ↔ needle.isPrefixOf (s :: xs) := by
      rw [List.isPrefixOf_iff_prefix, List.isPrefixOf_iff_prefix]
      exact ⟨whole 0 (Nat.succ_pos _), fun begins => begins.trans (List.prefix_append (s :: xs) ys)⟩
    simp only [copies, List.cons_append, rest, here, Nat.add_assoc]

theorem copies_eq_zero {t : Text} (never : ∀ i < t.length, ¬ needle <+: t.drop i) :
    copies needle t = 0 := by
  induction t with
  | nil => rfl
  | cons s t ih =>
    have here : ¬ needle.isPrefixOf (s :: t) := by
      rw [List.isPrefixOf_iff_prefix]
      exact never 0 (Nat.succ_pos _)
    rw [copies, if_neg here, ih fun i short => never (i + 1) (Nat.succ_lt_succ short)]

theorem copies_pos {t : Text} (begins : needle <+: t) (nonempty : needle ≠ []) :
    0 < copies needle t := by
  cases t with
  | nil => exact absurd (List.prefix_nil.mp begins) nonempty
  | cons s t =>
    rw [copies, if_pos (List.isPrefixOf_iff_prefix.mpr begins)]
    omega

theorem copies_le_count {first : Sym} (head : needle.head? = some first) (t : Text) :
    copies needle t ≤ t.count first := by
  induction t with
  | nil => exact Nat.le_refl 0
  | cons s t ih =>
    rw [copies, List.count_cons]
    by_cases here : needle.isPrefixOf (s :: t)
    · have same : s = first := by
        obtain ⟨rest, split⟩ := List.isPrefixOf_iff_prefix.mp here
        have heads := congrArg List.head? split
        rw [List.head?_append, head] at heads
        exact (Option.some.inj heads).symm
      rw [if_pos here, if_pos (beq_iff_eq.mpr same)]
      omega
    · rw [if_neg here]
      omega

theorem copies_slice (needle : Text) {page : Text} {i j k : Nat} (first : i ≤ j) (second : j ≤ k)
    (inside : j ≤ page.length)
    (whole : ∀ a, a < j → j < a + needle.length → ¬ needle <+: page.drop a) :
    copies needle (page.slice i k) =
      copies needle (page.slice i j) + copies needle (page.slice j k) := by
  have length := page.length_slice (i := i) inside
  rw [← page.slice_append_slice first second]
  apply copies_append
  intro x short begins
  rw [page.slice_append_slice first second, prefix_drop_slice] at begins
  refine prefix_drop_slice.mpr ⟨begins.1, ?_⟩
  by_contra beyond
  exact whole (i + x) (by omega) (by omega) begins.1

end Copies

end Unbundle.Text
