import Mathlib.Order.Bounds.Basic
import Unbundle.Markup.Tag

namespace Unbundle.Markup

theorem isLeast_shift {P : Nat → Prop} {p n : Nat} (least : IsLeast {i | P (p + i)} n) :
    IsLeast {i | p ≤ i ∧ P i} (p + n) := by
  refine ⟨⟨Nat.le_add_right p n, least.1⟩, ?_⟩
  intro i ⟨from_p, holds⟩
  have at_i : P (p + (i - p)) := by rwa [Nat.add_sub_cancel' from_p]
  have bound : n ≤ i - p := least.2 at_i
  omega

theorem never_shift {P : Nat → Prop} {p : Nat} (never : ∀ i, ¬ P (p + i)) :
    ∀ i, p ≤ i → ¬ P i := by
  intro i from_p holds
  apply never (i - p)
  rwa [Nat.add_sub_cancel' from_p]

/-- The search tries its test at every position of a text in turn. -/
structure Searches (search : Text → Option Nat) (test : Text → Bool) : Prop where
  nothing : test [] = false
  empty : search [] = none
  cons : ∀ s rest,
    search (s :: rest) = if test (s :: rest) then some 0 else (search rest).map (· + 1)

namespace Searches

variable {search : Text → Option Nat} {test : Text → Bool}

theorem least (searches : Searches search test) {t : Text} {n : Nat} (found : search t = some n) :
    IsLeast {i | test (t.drop i)} n := by
  induction t generalizing n with
  | nil => simp [searches.empty] at found
  | cons s rest ih =>
    rw [searches.cons] at found
    split at found
    · rename_i here
      cases found
      exact ⟨here, fun i _ => Nat.zero_le i⟩
    · rename_i notHere
      obtain ⟨m, later, rfl⟩ := Option.map_eq_some_iff.mp found
      obtain ⟨there, first⟩ := ih later
      refine ⟨there, ?_⟩
      intro i passes
      cases i with
      | zero => exact absurd passes notHere
      | succ i => exact Nat.succ_le_succ (first passes)

theorem never (searches : Searches search test) {t : Text} (missing : search t = none) (i : Nat) :
    ¬ test (t.drop i) := by
  induction t generalizing i with
  | nil => simp [searches.nothing]
  | cons s rest ih =>
    rw [searches.cons] at missing
    split at missing
    · cases missing
    · rename_i notHere
      cases i with
      | zero => exact notHere
      | succ i => exact ih (Option.map_eq_none_iff.mp missing) i

theorem least_from (searches : Searches search test) {t : Text} {p n : Nat}
    (found : search (t.drop p) = some n) : IsLeast {i | p ≤ i ∧ test (t.drop i)} (p + n) := by
  apply isLeast_shift
  simpa only [List.drop_drop] using searches.least found

theorem never_from (searches : Searches search test) {t : Text} {p : Nat}
    (missing : search (t.drop p) = none) : ∀ i, p ≤ i → ¬ test (t.drop i) := by
  apply never_shift
  simpa only [List.drop_drop] using searches.never missing

end Searches

theorem find_searches {needle : Text} (nonempty : needle ≠ []) :
    Searches (Text.find? needle) needle.isPrefixOf where
  nothing := by
    cases needle with
    | nil => contradiction
    | cons s rest => rfl
  empty := by simp [Text.find?, nonempty]
  cons _ _ := rfl

theorem closing_searches (name : Text) : Searches (closing? name) (closes name) where
  nothing := rfl
  empty := rfl
  cons _ _ := rfl

theorem findIdx_searches (x : Sym) :
    Searches (List.findIdx? (· == x)) fun t => t.head? == some x where
  nothing := rfl
  empty := rfl
  cons s rest := by simp [List.findIdx?_cons]

theorem findIdx_least {t : Text} {x : Sym} {p n : Nat}
    (found : (t.drop p).findIdx? (· == x) = some n) :
    IsLeast {i | p ≤ i ∧ t[i]? = some x} (p + n) := by
  simpa [List.head?_drop] using (findIdx_searches x).least_from found

theorem findIdx_never {t : Text} {x : Sym} {p : Nat}
    (missing : (t.drop p).findIdx? (· == x) = none) : ∀ i, p ≤ i → t[i]? ≠ some x := by
  simpa [List.head?_drop] using (findIdx_searches x).never_from missing

def quoteAfter (quote : Option Sym) (s : Sym) : Option Sym :=
  match quote with
  | some q => if s = q then none else some q
  | none => if isQuote s then some s else none

def openQuote (t : Text) : Option Sym := t.foldl quoteAfter none

theorem tagEnd_cons (quote : Option Sym) (s : Sym) (rest : Text) :
    tagEnd? quote (s :: rest) =
      if quote = none ∧ s = .scalar '>' then some 0
      else (tagEnd? (quoteAfter quote s) rest).map (· + 1) := by
  cases quote with
  | none => simp [tagEnd?, quoteAfter]
  | some q => simp [tagEnd?, quoteAfter]

theorem tagEnd_least {quote : Option Sym} {t : Text} {n : Nat} (found : tagEnd? quote t = some n) :
    IsLeast {i | t[i]? = some (.scalar '>') ∧ (t.take i).foldl quoteAfter quote = none} n := by
  induction t generalizing quote n with
  | nil => simp [tagEnd?] at found
  | cons s rest ih =>
    rw [tagEnd_cons] at found
    split at found
    · rename_i here
      cases found
      exact ⟨⟨by simp [here.2], by simp [here.1]⟩, fun i _ => Nat.zero_le i⟩
    · rename_i notHere
      obtain ⟨m, later, rfl⟩ := Option.map_eq_some_iff.mp found
      obtain ⟨there, first⟩ := ih later
      refine ⟨there, ?_⟩
      intro i ends
      cases i with
      | zero => exact absurd ⟨by simpa using ends.2, by simpa using ends.1⟩ notHere
      | succ i => exact Nat.succ_le_succ (first ends)

theorem tagEnd_never {quote : Option Sym} {t : Text} (missing : tagEnd? quote t = none) (i : Nat) :
    ¬ (t[i]? = some (.scalar '>') ∧ (t.take i).foldl quoteAfter quote = none) := by
  induction t generalizing quote i with
  | nil => simp
  | cons s rest ih =>
    rw [tagEnd_cons] at missing
    split at missing
    · cases missing
    · rename_i notHere
      cases i with
      | zero => exact fun ends => notHere ⟨by simpa using ends.2, by simpa using ends.1⟩
      | succ i => exact ih (Option.map_eq_none_iff.mp missing) i

/-- A `>` behind `start` that no quote opened behind `start` holds. -/
def EndsTag (page : Text) (start i : Nat) : Prop :=
  start < i ∧ page[i]? = some (.scalar '>') ∧ openQuote (page.slice (start + 1) i) = none

theorem tagEnd_isLeast_endsTag {page : Text} {start n : Nat}
    (found : tagEnd? none (page.drop (start + 1)) = some n) :
    IsLeast {i | EndsTag page start i} (start + 1 + n) := by
  refine isLeast_shift (P := fun i => page[i]? = some (.scalar '>') ∧
    openQuote (page.slice (start + 1) i) = none) ?_
  simpa [openQuote, Text.slice, List.getElem?_drop] using tagEnd_least found

theorem tagEnd_never_endsTag {page : Text} {start : Nat}
    (missing : tagEnd? none (page.drop (start + 1)) = none) : ∀ i, ¬ EndsTag page start i := by
  intro i ⟨behind, holds⟩
  refine never_shift (P := fun i => page[i]? = some (.scalar '>') ∧
    openQuote (page.slice (start + 1) i) = none) ?_ i behind holds
  simpa [openQuote, Text.slice, List.getElem?_drop] using tagEnd_never missing

end Unbundle.Markup
