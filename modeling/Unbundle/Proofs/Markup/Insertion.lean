import Unbundle.Assets
import Unbundle.Proofs.Markup.Piece

namespace Unbundle.Markup

theorem link_closed : Kind.style.reference.Closed := by
  unfold Text.Closed
  decide

theorem link_no_comment : Text.find? "-->" Kind.style.reference = none := by decide

theorem link_no_closing (kind : Kind) :
    closing? kind.name (Kind.style.reference.map Sym.asciiLower) = none := by
  cases kind <;> decide

theorem link_quoted {q : Sym} (quote : isQuote q) :
    tagEnd? (some q) Kind.style.reference = none ∧
      Kind.style.reference.foldl quoteAfter (some q) = some q := by
  have either : q = .scalar '\x22' ∨ q = .scalar '\x27' := by
    cases q with
    | raw low => cases quote
    | scalar c => simpa [isQuote, Sym.isOneOf] using quote
  rcases either with rfl | rfl
  · decide
  · decide

theorem openQuote_isQuote {t : Text} {q : Sym} (found : openQuote t = some q) : isQuote q := by
  have kept : ∀ (t : Text) (quote : Option Sym), (∀ q, quote = some q → isQuote q) →
      ∀ q, t.foldl quoteAfter quote = some q → isQuote q := by
    intro t
    induction t with
    | nil => exact fun quote quotes => quotes
    | cons s t ih =>
      intro quote quotes
      exact ih _ (Text.Alike.quoteAfter_congr rfl quotes).2
  exact kept t none (fun _ none => nomatch none) q found

theorem quoted_of_closed {t : Text} (closed : t.Closed) (missing : tagEnd? none t = none) :
    ∃ q, isQuote q ∧ t.foldl quoteAfter none = some q := by
  have nonempty := closed.ne_nil
  have last : t.getLast nonempty = .scalar '>' := by
    rw [Text.Closed, List.getLast?_eq_some_getLast nonempty] at closed
    exact Option.some.inj closed
  have parts := List.dropLast_append_getLast nonempty
  rw [last] at parts
  have inside : openQuote t.dropLast ≠ none := by
    intro none
    have never := tagEnd?_append Option.none t.dropLast [.scalar '>']
    change t.dropLast.foldl quoteAfter Option.none = Option.none at none
    rw [parts, missing, none, eq_comm, Option.or_eq_none_iff] at never
    exact absurd never.2 (by simp [tagEnd?])
  obtain ⟨q, found⟩ := Option.ne_none_iff_exists'.mp inside
  have quote := openQuote_isQuote found
  refine ⟨q, quote, ?_⟩
  have whole : t.foldl quoteAfter none = quoteAfter (openQuote t.dropLast) (.scalar '>') := by
    conv_lhs => rw [← parts, List.foldl_append]
    rfl
  rw [whole, found]
  refine if_neg ?_
  rintro rfl
  exact absurd quote (by decide)

theorem Body.prepend_iff {kind : Kind} {front t : Text} (closed : front.Closed)
    (missing : closing? kind.name (front.map Sym.asciiLower) = none) :
    Body kind (front ++ t) ↔ Body kind t := by
  have found : closing? kind.name ((front ++ t).map Sym.asciiLower) =
      (closing? kind.name (t.map Sym.asciiLower)).map (front.length + ·) := by
    rw [List.map_append, closing?_append closed.map_asciiLower, missing, Option.none_or,
      List.length_map]
  have later : ∀ k, (front ++ t).drop (front.length + k) = t.drop k := by
    intro k
    rw [← List.drop_drop, List.drop_left]
  unfold Body
  rw [found, List.length_append]
  constructor
  · rintro ⟨_, m, shifted, ends, whole⟩
    obtain ⟨k, closing, rfl⟩ := Option.map_eq_some_iff.mp shifted
    rw [later] at ends
    exact ⟨k, m, closing, ends, by omega⟩
  · rintro ⟨k, m, closing, ends, whole⟩
    exact ⟨front.length + k, m, by rw [closing]; rfl, by rw [later]; exact ends, by omega⟩

theorem findIdx?_of_closed {t : Text} (closed : t.Closed) :
    ∃ n < t.length, t.findIdx? (· == .scalar '>') = some n := by
  cases found : t.findIdx? (· == .scalar '>') with
  | none =>
    have missing := List.findIdx?_eq_none_iff.mp found _ closed.mem
    exact absurd missing (by decide)
  | some n => exact ⟨n, (List.findIdx?_eq_some_iff_getElem.mp found).1, rfl⟩

variable {kind : Kind} {front behind : Text}

theorem Body.missing (body : Body kind (front ++ behind)) (closed : front.Closed)
    (more : behind ≠ []) : closing? kind.name (front.map Sym.asciiLower) = none := by
  obtain ⟨k, m, closing, ends, whole⟩ := body
  by_contra found
  obtain ⟨k', here⟩ := Option.ne_none_iff_exists'.mp found
  rw [List.map_append, closing?_append closed.map_asciiLower, here, Option.some_or] at closing
  cases closing
  have begun := List.isPrefixOf_iff_prefix.mp (Bool.and_eq_true_iff.mp
    ((closing_searches kind.name).least here).1).1
  have inside : k < front.length := by
    have stands := position_lt (Text.getElem?_of_begins begun (x := 0) rfl)
    rwa [Nat.add_zero, List.length_map] at stands
  obtain ⟨m', bound, last⟩ := findIdx?_of_closed (closed.drop inside)
  rw [List.drop_append_of_le_length (Nat.le_of_lt inside), List.findIdx?_append, last,
    Option.some_or] at ends
  cases ends
  have positive := List.length_pos_iff.mpr more
  rw [List.length_drop] at bound
  rw [List.length_append] at whole
  omega

theorem Body.insert (body : Body kind (front ++ behind)) (closed : front = [] ∨ front.Closed)
    (more : behind ≠ []) : Body kind (front ++ Kind.style.reference ++ behind) := by
  rw [List.append_assoc]
  rcases closed with rfl | closed
  · exact (Body.prepend_iff link_closed (link_no_closing kind)).mpr body
  · have missing := body.missing closed more
    rw [Body.prepend_iff closed missing, Body.prepend_iff link_closed (link_no_closing kind)]
    exact (Body.prepend_iff closed missing).mp body

theorem Opening.insert (opening : Opening kind (front ++ behind)) (closed : front.Closed)
    (long : 1 < front.length) (more : behind ≠ []) :
    Opening kind (front ++ Kind.style.reference ++ behind) := by
  obtain ⟨n, ends, whole⟩ := opening.ends
  have positive := List.length_pos_iff.mpr more
  rw [List.length_append] at whole
  rw [List.drop_append_of_le_length (by omega), tagEnd?_append] at ends
  have later : ∀ k, tagEnd? none (front.drop 1) = some k → k < n := by
    intro k found
    have short := position_lt (tagEnd_least found).1.1
    rw [List.length_drop] at short
    omega
  obtain ⟨missing, m, last, rfl⟩ := found_second ends later
  -- The tag goes on behind a `>`, so a quote is open where the reference is put in.
  obtain ⟨q, quote, opened⟩ := quoted_of_closed (closed.drop long) missing
  rw [opened] at last
  rw [List.length_drop] at whole
  constructor
  · rw [List.append_assoc, blockKind?_append closed _ 0 long,
      ← blockKind?_append closed behind 0 long]
    exact opening.begins
  · refine ⟨(front.drop 1).length + (Kind.style.reference.length + m), ?_, ?_⟩
    · rw [List.append_assoc, List.drop_append_of_le_length (by omega), tagEnd?_append, missing,
        opened, tagEnd?_append, (link_quoted quote).1, (link_quoted quote).2, last]
      rfl
    · rw [List.length_append, List.length_append, List.length_drop]
      omega

theorem insert_comment {n : Nat} (begins : (folded 0 (front ++ behind)).startsWith "<!--")
    (ends : Text.find? "-->" ((front ++ behind).drop 4) = some n)
    (whole : n + 7 = (front ++ behind).length) (closed : front.Closed) (more : behind ≠ []) :
    Piece (front ++ Kind.style.reference ++ behind) := by
  have positive := List.length_pos_iff.mpr more
  rw [startsWith_append closed behind 0 "<!--" (by decide)] at begins
  have four : 4 < front.length := by
    have longer : 4 < (front.map Sym.asciiLower).length :=
      closed.map_asciiLower.longer (List.isPrefixOf_iff_prefix.mp begins)
        (by unfold Text.Closed; decide)
    rwa [List.length_map] at longer
  have tail : Text.Closed (front.drop 4) := closed.drop four
  rw [List.drop_append_of_le_length (Nat.le_of_lt four), find?_append tail] at ends
  rw [List.length_append] at whole
  have later : ∀ k, Text.find? "-->" (front.drop 4) = some k → k < n := by
    intro k found
    have begun := List.isPrefixOf_iff_prefix.mp ((find_searches (by decide)).least found).1
    have stands := position_lt (Text.getElem?_of_begins begun (x := 2) rfl)
    rw [List.length_drop] at stands
    omega
  obtain ⟨missing, m, last, rfl⟩ := found_second ends later
  rw [List.length_drop] at whole
  refine .comment (n := (front.drop 4).length + (Kind.style.reference.length + m)) ?_ ?_ ?_
  · rw [List.append_assoc, startsWith_append closed _ 0 "<!--" (by decide)]
    exact begins
  · rw [List.append_assoc, List.drop_append_of_le_length (Nat.le_of_lt four), find?_append tail,
      missing, find?_append link_closed, link_no_comment, last]
    rfl
  · rw [List.length_append, List.length_append, List.length_drop]
    omega

theorem insert_element {tag body : Text} (opening : Opening kind tag) (closing : Body kind body)
    (split : front ++ behind = tag ++ body) (closed : front.Closed) (long : 1 < front.length)
    (more : behind ≠ []) : Piece (front ++ Kind.style.reference ++ behind) := by
  -- The place lies in the opening tag, at its end or behind it.
  rcases List.append_eq_append_iff.mp split with ⟨within, rfl, rfl⟩ | ⟨within, rfl, rfl⟩
  · by_cases ended : within = []
    · subst ended
      rw [List.append_nil] at opening
      have inserted : Body kind (Kind.style.reference ++ body) := closing.insert (.inl rfl) more
      rw [List.nil_append, List.append_assoc]
      exact .element opening inserted
    · have inserted := opening.insert closed long ended
      rw [← List.append_assoc]
      exact .element inserted closing
  · have ends : within = [] ∨ Text.Closed within := by
      by_cases empty : within = []
      · exact .inl empty
      · right
        rw [Text.Closed, List.getLast?_append_of_ne_nil _ empty] at closed
        exact closed
    have inserted := closing.insert ends more
    rw [List.append_assoc, List.append_assoc, ← List.append_assoc within]
    exact .element opening inserted

theorem Piece.insert (piece : Piece (front ++ behind)) (closed : front.Closed)
    (long : 1 < front.length) (more : behind ≠ []) :
    Piece (front ++ Kind.style.reference ++ behind) := by
  generalize split : front ++ behind = t at piece
  cases piece with
  | @comment t n begins ends whole =>
    subst split
    exact insert_comment begins ends whole closed more
  | @declaration t n comment begins ends whole =>
    -- A declaration has no `>` but its last symbol.
    exfalso
    subst split
    obtain ⟨k, inside, found⟩ := findIdx?_of_closed closed
    rw [List.findIdx?_append, found, Option.some_or] at ends
    cases ends
    have positive := List.length_pos_iff.mpr more
    rw [List.length_append] at whole
    omega
  | @element kind tag body opening closing =>
    exact insert_element opening closing split closed long more

end Unbundle.Markup
