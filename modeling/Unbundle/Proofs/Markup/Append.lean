import Unbundle.Proofs.Markup.Search
import Unbundle.Proofs.Text.Case

namespace Unbundle

def Text.Closed (t : Text) : Prop := t.getLast? = some (.scalar '>')

namespace Text.Closed

variable {t : Text}

theorem ne_nil (closed : Closed t) : t ≠ [] := by
  rintro rfl
  cases closed

theorem drop (closed : Closed t) {i : Nat} (short : i < t.length) : Closed (t.drop i) := by
  rw [Closed, List.getLast?_drop, if_neg (Nat.not_le_of_lt short)]
  exact closed

theorem tail {s s' : Sym} (closed : Closed (s :: s' :: t)) : Closed (s' :: t) := by
  rw [Closed, List.getLast?_cons_cons] at closed
  exact closed

theorem map_asciiLower (closed : Closed t) : Closed (t.map Sym.asciiLower) := by
  rw [Closed, List.getLast?_map, closed]
  rfl

theorem append (closed : Closed t) (front : Text) : Closed (front ++ t) := by
  rw [Closed, List.getLast?_append, closed]
  rfl

theorem mem (closed : Closed t) : .scalar '>' ∈ t := List.mem_of_getLast? closed

theorem longer (closed : Closed t) {needle : Text} (begins : needle <+: t)
    (other : ¬ Closed needle) : needle.length < t.length := by
  refine Nat.lt_of_le_of_ne begins.length_le ?_
  intro same
  rw [begins.eq_of_length same] at other
  exact other closed

end Text.Closed

namespace Markup

section Found

-- A search in two parts, which counts what it finds in the second with those of the first.
variable {first second : Option Nat} {shift : Nat → Nat} {n : Nat}
  (found : first.or (second.map shift) = some n)

include found

theorem found_first (short : ∀ m, n < shift m) : first = some n := by
  cases first with
  | some k => exact found
  | none =>
    obtain ⟨m, -, beyond⟩ := Option.map_eq_some_iff.mp found
    exact absurd (short m) (beyond ▸ Nat.lt_irrefl _)

theorem found_second (long : ∀ k, first = some k → k < n) :
    first = none ∧ ∃ m, second = some m ∧ shift m = n := by
  cases first with
  | some k =>
    have same : k = n := Option.some.inj found
    exact absurd (long k rfl) (same ▸ Nat.lt_irrefl _)
  | none => exact ⟨rfl, Option.map_eq_some_iff.mp found⟩

end Found

variable {t : Text}

theorem isPrefixOf_append (closed : t.Closed) (needle : Text)
    (last : .scalar '>' ∉ needle.dropLast) (rest : Text) :
    needle.isPrefixOf (t ++ rest) = needle.isPrefixOf t := by
  induction t generalizing needle with
  | nil => exact absurd rfl closed.ne_nil
  | cons s t ih =>
    cases needle with
    | nil => rfl
    | cons x needle =>
      simp only [List.cons_append, List.isPrefixOf]
      cases t with
      | cons s' t =>
        rw [ih closed.tail needle]
        intro member
        cases needle with
        | nil => cases member
        | cons y needle => exact last (List.mem_cons_of_mem x member)
      | nil =>
        -- The `>` is compared with a symbol that is not the last of the needle.
        cases needle with
        | nil => rfl
        | cons y needle =>
          have bracket : s = .scalar '>' := Option.some.inj closed
          have other : x ≠ s := by
            rintro rfl
            exact last (bracket ▸ List.mem_cons_self)
          rw [beq_eq_false_iff_ne.mpr other]
          rfl

theorem namesTag_append (closed : t.Closed) {name : Text} (tagless : .scalar '>' ∉ name)
    (rest : Text) : namesTag name (t ++ rest) = namesTag name t := by
  have begins := isPrefixOf_append closed name
    (fun member => tagless (List.mem_of_mem_dropLast member)) rest
  rw [namesTag, namesTag, begins]
  by_cases here : name.isPrefixOf t
  · have short : name.length < t.length :=
      closed.longer (List.isPrefixOf_iff_prefix.mp here) fun ends => tagless ends.mem
    rw [List.drop_append_of_le_length (Nat.le_of_lt short), List.head?_append,
      List.head?_eq_some_head (List.ne_nil_of_length_pos (by rw [List.length_drop]; omega))]
    rfl
  · rw [Bool.eq_false_iff.mpr here, Bool.false_and, Bool.false_and]

theorem closes_append (closed : t.Closed) {name : Text} (tagless : .scalar '>' ∉ name)
    (rest : Text) : closes name (t ++ rest) = closes name t := by
  have begins := isPrefixOf_append closed "</" (by decide) rest
  rw [closes, closes, begins]
  by_cases here : List.isPrefixOf ("</" : Text) t
  · have short : 2 < t.length :=
      closed.longer (List.isPrefixOf_iff_prefix.mp here) (by unfold Text.Closed; decide)
    rw [List.drop_append_of_le_length (Nat.le_of_lt short),
      namesTag_append (closed.drop short) tagless]
  · rw [Bool.eq_false_iff.mpr here, Bool.false_and, Bool.false_and]

theorem Searches.append {search : Text → Option Nat} {test : Text → Bool}
    (searches : Searches search test)
    (apart : ∀ t : Text, t.Closed → ∀ rest, test (t ++ rest) = test t) (closed : t.Closed)
    (rest : Text) :
    search (t ++ rest) = (search t).or ((search rest).map (t.length + ·)) := by
  -- The rest of a text that ends with a `>` does so too, unless nothing is left.
  have passed : ∀ u : Text, (u = [] ∨ u.Closed) →
      search (u ++ rest) = (search u).or ((search rest).map (u.length + ·)) := by
    intro u ends
    induction u with
    | nil => simp [searches.empty]
    | cons s u ih =>
      have here := apart (s :: u) (ends.resolve_left (by simp)) rest
      have later : u = [] ∨ Text.Closed u := by
        cases u with
        | nil => exact .inl rfl
        | cons s' u => exact .inr (ends.resolve_left (by simp)).tail
      rw [List.cons_append, searches.cons, searches.cons, ih later, ← List.cons_append, here]
      split
      · rfl
      · cases search u with
        | some n => rfl
        | none =>
          cases search rest with
          | none => rfl
          | some n => simp [Nat.add_right_comm]
  exact passed t (.inr closed)

theorem find?_append (closed : t.Closed) (rest : Text) :
    Text.find? "-->" (t ++ rest) =
      (Text.find? "-->" t).or ((Text.find? "-->" rest).map (t.length + ·)) :=
  (find_searches (by decide)).append
    (fun _ closed rest => isPrefixOf_append closed "-->" (by decide) rest) closed rest

theorem closing?_append (closed : t.Closed) (kind : Kind) (rest : Text) :
    closing? kind.name (t ++ rest) =
      (closing? kind.name t).or ((closing? kind.name rest).map (t.length + ·)) :=
  (closing_searches kind.name).append
    (fun _ closed rest => closes_append closed (by cases kind <;> decide) rest) closed rest

theorem tagEnd?_append (quote : Option Sym) (t rest : Text) :
    tagEnd? quote (t ++ rest) =
      (tagEnd? quote t).or ((tagEnd? (t.foldl quoteAfter quote) rest).map (t.length + ·)) := by
  induction t generalizing quote with
  | nil => simp [tagEnd?]
  | cons s t ih =>
    rw [List.cons_append, tagEnd_cons, tagEnd_cons, ih, List.foldl_cons]
    split
    · rfl
    · cases tagEnd? (quoteAfter quote s) t with
      | some n => rfl
      | none =>
        cases tagEnd? (t.foldl quoteAfter (quoteAfter quote s)) rest with
        | none => rfl
        | some n => simp [Nat.add_right_comm]

end Markup

end Unbundle
