import Mathlib.Data.Set.Subsingleton
import Unbundle.Proofs.Markup.Append

namespace Unbundle.Markup

/-- A symbol that is no `>` and no quote, or a string in quotes of one kind. -/
inductive TagPart : Text → Prop
  | plain (s : Sym) (other : ¬ s.isOneOf ['>', '\x22', '\x27']) : TagPart [s]
  | double (value : Text) (inner : .scalar '\x22' ∉ value) : TagPart ("\"" ++ value ++ "\"")
  | single (value : Text) (inner : .scalar '\x27' ∉ value) : TagPart ("'" ++ value ++ "'")

def TagText (t : Text) : Prop :=
  ∃ parts : List Text, (∀ part ∈ parts, TagPart part) ∧ t = parts.flatten

/-- The tag that is opened at `start` has its `>` at `stop`. -/
structure SpansTag (page : Text) (start stop : Nat) : Prop where
  behind : start < stop
  ends : page[stop]? = some (.scalar '>')
  text : TagText (page.slice (start + 1) stop)

theorem TagText.nil : TagText [] := ⟨[], nofun, rfl⟩

theorem TagText.cons {part rest : Text} (first : TagPart part) (later : TagText rest) :
    TagText (part ++ rest) := by
  obtain ⟨parts, each, rfl⟩ := later
  exact ⟨part :: parts, List.forall_mem_cons.mpr ⟨first, each⟩, List.flatten_cons.symm⟩

theorem TagPart.quoted {quote : Sym} (quotes : isQuote quote) {value : Text}
    (inner : quote ∉ value) : TagPart ([quote] ++ value ++ [quote]) := by
  cases quote with
  | raw low => cases quotes
  | scalar c =>
    have kinds : c = '\x22' ∨ c = '\x27' := by simpa [isQuote, Sym.isOneOf] using quotes
    rcases kinds with rfl | rfl
    · exact .double value inner
    · exact .single value inner

theorem plain_iff {s : Sym} :
    ¬ s.isOneOf ['>', '\x22', '\x27'] ↔ s ≠ .scalar '>' ∧ ¬ isQuote s := by
  cases s with
  | raw low => simp [isQuote, Sym.isOneOf]
  | scalar c => simp [isQuote, Sym.isOneOf]

/-- What the rest of a tag reads while a quote is open: the end of that string in front. -/
def Resumes : Option Sym → Text → Prop
  | none, t => TagText t
  | some quote, t => ∃ value rest, t = value ++ quote :: rest ∧ quote ∉ value ∧ TagText rest

theorem Resumes.cons {quote : Option Sym} {s : Sym} {t : Text}
    (onward : ¬ (quote = none ∧ s = .scalar '>')) (later : Resumes (quoteAfter quote s) t) :
    Resumes quote (s :: t) := by
  cases quote with
  -- Inside of a string only its own quote counts.
  | some q =>
    by_cases closing : s = q
    · rw [quoteAfter, if_pos closing] at later
      exact ⟨[], t, by rw [closing, List.nil_append], List.not_mem_nil, later⟩
    · rw [quoteAfter, if_neg closing] at later
      obtain ⟨value, rest, rfl, inner, text⟩ := later
      exact ⟨s :: value, rest, rfl, List.not_mem_cons_of_ne_of_not_mem (Ne.symm closing) inner,
        text⟩
  | none =>
    by_cases opening : isQuote s
    · rw [quoteAfter, if_pos opening] at later
      obtain ⟨value, rest, rfl, inner, text⟩ := later
      have whole := TagText.cons (.quoted opening inner) text
      rwa [List.append_assoc, List.append_assoc] at whole
    · rw [quoteAfter, if_neg opening] at later
      have other : s ≠ .scalar '>' := fun ends => onward ⟨rfl, ends⟩
      exact TagText.cons (.plain s (plain_iff.mpr ⟨other, opening⟩)) later

/-- The search for a `>` goes through the text without finding one, and no quote is open then. -/
structure Passed (t : Text) : Prop where
  onward : tagEnd? none t = none
  closed : openQuote t = none

/-- Behind an opening quote, a `>` counts as little as a quote of the other kind. -/
theorem string_passed {quote : Sym} {value : Text} (inner : quote ∉ value) :
    tagEnd? (some quote) (value ++ [quote]) = none ∧
      (value ++ [quote]).foldl quoteAfter (some quote) = none := by
  induction value with
  | nil => simp [tagEnd?, quoteAfter]
  | cons s value ih =>
    obtain ⟨other, later⟩ := not_or.mp (mt List.mem_cons.mpr inner)
    have open_still : quoteAfter (some quote) s = some quote := if_neg (Ne.symm other)
    obtain ⟨onward, closed⟩ := ih later
    constructor
    · rw [List.cons_append, tagEnd_cons, if_neg (by simp), open_still, onward, Option.map_none]
    · rw [List.cons_append, List.foldl_cons, open_still, closed]

namespace Passed

theorem tagEnd?_append {t : Text} (passed : Passed t) (rest : Text) :
    tagEnd? none (t ++ rest) = (tagEnd? none rest).map (t.length + ·) := by
  rw [Markup.tagEnd?_append, passed.onward, Option.none_or, ← openQuote, passed.closed]

theorem append {t rest : Text} (first : Passed t) (later : Passed rest) : Passed (t ++ rest) where
  onward := by rw [first.tagEnd?_append, later.onward, Option.map_none]
  closed := by
    rw [openQuote, List.foldl_append, ← openQuote, first.closed, ← openQuote, later.closed]

theorem plain {s : Sym} (other : ¬ s.isOneOf ['>', '\x22', '\x27']) : Passed [s] := by
  obtain ⟨notEnd, notQuote⟩ := plain_iff.mp other
  constructor
  · rw [tagEnd_cons, if_neg fun ends => notEnd ends.2]
    rfl
  · rw [openQuote, List.foldl_cons, quoteAfter, if_neg notQuote]
    rfl

theorem quoted {quote : Sym} (quotes : isQuote quote) {value : Text} (inner : quote ∉ value) :
    Passed ([quote] ++ value ++ [quote]) := by
  have notEnd : quote ≠ .scalar '>' := fun ends => absurd quotes (by rw [ends]; decide)
  have opened : quoteAfter none quote = some quote := by rw [quoteAfter, if_pos quotes]
  obtain ⟨onward, closed⟩ := string_passed inner
  constructor
  · rw [List.append_assoc, List.singleton_append, tagEnd_cons, if_neg fun ends => notEnd ends.2,
      opened, onward, Option.map_none]
  · rw [List.append_assoc, List.singleton_append, openQuote, List.foldl_cons, opened, closed]

end Passed

theorem TagPart.passed {part : Text} (written : TagPart part) : Passed part := by
  cases written with
  | plain s other => exact .plain other
  | double value inner => exact .quoted (by decide) inner
  | single value inner => exact .quoted (by decide) inner

theorem TagText.passed {t : Text} (written : TagText t) : Passed t := by
  obtain ⟨parts, each, rfl⟩ := written
  induction parts with
  | nil => exact ⟨rfl, rfl⟩
  | cons part parts ih =>
    obtain ⟨first, later⟩ := List.forall_mem_cons.mp each
    exact first.passed.append (ih later)

theorem resumes_of_tagEnd {quote : Option Sym} {t : Text} (onward : tagEnd? quote t = none)
    (closed : t.foldl quoteAfter quote = none) : Resumes quote t := by
  induction t generalizing quote with
  | nil =>
    cases closed
    exact TagText.nil
  | cons s t ih =>
    rw [tagEnd_cons] at onward
    split at onward
    · cases onward
    · rename_i notHere
      exact .cons notHere (ih (Option.map_eq_none_iff.mp onward) closed)

theorem tagText_iff_passed {t : Text} : TagText t ↔ Passed t :=
  ⟨TagText.passed, fun passed => resumes_of_tagEnd passed.onward passed.closed⟩

theorem tagEnd_eq_some_iff {t : Text} {n : Nat} :
    tagEnd? none t = some n ↔ t[n]? = some (.scalar '>') ∧ TagText (t.take n) := by
  constructor
  · intro found
    obtain ⟨⟨ends, closed⟩, _⟩ := tagEnd_least found
    refine ⟨ends, tagText_iff_passed.mpr ⟨?_, closed⟩⟩
    -- A `>` outside of quotes in the text in front would have been found first.
    have whole := Markup.tagEnd?_append none (t.take n) (t.drop n)
    rw [List.take_append_drop, found] at whole
    cases early : tagEnd? none (t.take n) with
    | none => rfl
    | some m =>
      rw [early, Option.some_or] at whole
      have short := (List.getElem?_eq_some_iff.mp (tagEnd_least early).1.1).1
      rw [List.length_take, ← Option.some.inj whole] at short
      omega
  · intro ⟨ends, written⟩
    obtain ⟨short, here⟩ := List.getElem?_eq_some_iff.mp ends
    have parts : t = t.take n ++ .scalar '>' :: t.drop (n + 1) := by
      rw [← here, List.getElem_cons_drop, List.take_append_drop]
    have length : (t.take n).length = n := List.length_take_of_le (Nat.le_of_lt short)
    rw [parts, written.passed.tagEnd?_append, length]
    rfl

/-- The search finds the `>` at `stop` exactly if a tag from `start` to there is written in the
    grammar. There is at most one such place, and the search fails only where there is none. -/
theorem tagEnd_accepts (page : Text) (start : Nat) :
    (∀ stop, (tagEnd? none (page.drop (start + 1))).map (start + 1 + ·) = some stop ↔
      SpansTag page start stop) ∧
    ((tagEnd? none (page.drop (start + 1))).map (start + 1 + ·) = none ↔
      ∀ stop, ¬ SpansTag page start stop) ∧
    {stop | SpansTag page start stop}.Subsingleton := by
  have accepts : ∀ stop, (tagEnd? none (page.drop (start + 1))).map (start + 1 + ·) = some stop ↔
      SpansTag page start stop := by
    intro stop
    rw [Option.map_eq_some_iff]
    constructor
    · intro reached
      obtain ⟨n, found, rfl⟩ := reached
      obtain ⟨ends, written⟩ := tagEnd_eq_some_iff.mp found
      rw [List.getElem?_drop] at ends
      exact ⟨by omega, ends, by rwa [Text.slice, Nat.add_sub_cancel_left]⟩
    · intro spans
      have behind := spans.behind
      refine ⟨stop - (start + 1), tagEnd_eq_some_iff.mpr ⟨?_, spans.text⟩, by omega⟩
      rw [List.getElem?_drop, Nat.add_sub_of_le behind, spans.ends]
  refine ⟨accepts, ?_, ?_⟩
  · simp only [Option.eq_none_iff_forall_ne_some, ne_eq, accepts]
  · intro stop spans other also
    exact Option.some.inj (((accepts stop).mpr spans).symm.trans ((accepts other).mpr also))

example : tagEnd? none ("a t=\">'\" u='>\"'>b" : Text) = some 15 := by decide

end Unbundle.Markup
