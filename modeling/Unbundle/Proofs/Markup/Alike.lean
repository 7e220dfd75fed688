import Mathlib.Data.List.Forall2
import Unbundle.Proofs.Markup.Reading
import Unbundle.Proofs.Text.Letters

namespace Unbundle

def markChars : List Char := ['<', '>', '-', '\x22', '\x27']

def nameEnds : List Char := [' ', '\t', '\n', '\r', '\x0c', '/', '>']

def punctuation : List Char := ['<', '!', '?', '-'] ++ nameEnds

theorem Kind.name_seen (kind : Kind) : ∀ x ∈ kind.name, x.isOneOf tagChars := by
  cases kind <;> decide

namespace Text

def Alike (cs : List Char) (t u : Text) : Prop :=
  List.Forall₂ (fun s s' => s.among cs = s'.among cs) t u

variable {cs : List Char} {t u : Text}

theorem alike_iff_map : Alike cs t u ↔ t.map (Sym.among cs) = u.map (Sym.among cs) := by
  rw [← List.forall₂_eq_eq_eq, List.forall₂_map_left_iff, List.forall₂_map_right_iff]
  rfl

theorem Alike.drop (alike : Alike cs t u) (n : Nat) : Alike cs (t.drop n) (u.drop n) :=
  List.forall₂_drop n alike

end Text

namespace Sym

variable {cs : List Char} {s s' : Sym}

theorem among_eq_iff : s.among cs = s'.among cs ↔
    s = s' ∨ s.isOneOf cs = false ∧ s'.isOneOf cs = false := by
  constructor
  · intro same
    by_cases left : s.isOneOf cs
    · by_cases right : s'.isOneOf cs
      · simp only [among, left, right, if_true, Option.some.injEq] at same
        exact .inl same
      · simp [among, left, right] at same
    · by_cases right : s'.isOneOf cs
      · simp [among, left, right] at same
      · simp [left, right]
  · intro either
    rcases either with equal | ⟨left, right⟩
    · rw [equal]
    · simp [among, left, right]

theorem isOneOf_mono {cs' : List Char} (subset : cs' ⊆ cs) (found : s.isOneOf cs') :
    s.isOneOf cs := by
  cases s with
  | raw low => cases found
  | scalar c => exact List.contains_iff_mem.mpr (subset (List.contains_iff_mem.mp found))

theorem not_isOneOf_mono {cs' : List Char} (subset : cs' ⊆ cs) (missing : s.isOneOf cs = false) :
    s.isOneOf cs' = false := by
  by_contra found
  rw [isOneOf_mono subset (Bool.eq_true_of_not_eq_false found)] at missing
  contradiction

theorem isOneOf_congr (same : s.among cs = s'.among cs) {cs' : List Char} (subset : cs' ⊆ cs) :
    s.isOneOf cs' = s'.isOneOf cs' := by
  rcases among_eq_iff.mp same with rfl | ⟨left, right⟩
  · rfl
  · rw [not_isOneOf_mono subset left, not_isOneOf_mono subset right]

theorem among_mono {cs' : List Char} (same : s.among cs = s'.among cs) (subset : cs' ⊆ cs) :
    s.among cs' = s'.among cs' := by
  rcases among_eq_iff.mp same with rfl | ⟨left, right⟩
  · rfl
  · exact among_eq_iff.mpr (.inr ⟨not_isOneOf_mono subset left, not_isOneOf_mono subset right⟩)

theorem eq_congr (same : s.among cs = s'.among cs) {x : Sym} (seen : x.isOneOf cs) :
    s = x ↔ s' = x := by
  rcases among_eq_iff.mp same with rfl | ⟨left, right⟩
  · rfl
  · constructor
    · intro equal
      rw [equal, seen] at left
      contradiction
    · intro equal
      rw [equal, seen] at right
      contradiction

end Sym

namespace Text.Alike

variable {cs : List Char} {t u : Text}

theorem isPrefixOf (alike : Alike cs t u) (needle : Text) (seen : ∀ x ∈ needle, x.isOneOf cs) :
    needle.isPrefixOf t = needle.isPrefixOf u := by
  induction alike generalizing needle with
  | nil => rfl
  | cons same rest ih =>
    cases needle with
    | nil => rfl
    | cons x needle =>
      have here := Sym.eq_congr same (seen x List.mem_cons_self)
      have later := ih needle fun y member => seen y (List.mem_cons_of_mem x member)
      simp only [List.isPrefixOf, later]
      rw [Bool.eq_iff_iff]
      simp [eq_comm (a := x), here]

theorem findIdx? (alike : Alike cs t u) (x : Sym) (seen : x.isOneOf cs) :
    List.findIdx? (· == x) t = List.findIdx? (· == x) u := by
  induction alike with
  | nil => rfl
  | cons same rest ih =>
    have here := Sym.eq_congr same seen
    simp only [List.findIdx?_cons, ih, beq_iff_eq, here]

theorem find? (alike : Alike cs t u) (needle : Text) (seen : ∀ x ∈ needle, x.isOneOf cs) :
    Text.find? needle t = Text.find? needle u := by
  induction alike with
  | nil => rfl
  | cons same rest ih =>
    have here := isPrefixOf (.cons same rest) needle seen
    simp only [Text.find?, here, ih]

theorem boundary (alike : Alike cs t u) (seen : nameEnds ⊆ cs) :
    t.head?.all Markup.endsName = u.head?.all Markup.endsName := by
  cases alike with
  | nil => rfl
  | cons same rest => exact Sym.isOneOf_congr same seen

theorem namesTag (alike : Alike tagChars t u) (name : Text)
    (seen : ∀ x ∈ name, x.isOneOf tagChars) : Markup.namesTag name t = Markup.namesTag name u := by
  have begins := alike.isPrefixOf name seen
  have boundary := (alike.drop name.length).boundary (by decide)
  simp only [Markup.namesTag, begins, boundary]

theorem closes (alike : Alike tagChars t u) (name : Text)
    (seen : ∀ x ∈ name, x.isOneOf tagChars) : Markup.closes name t = Markup.closes name u := by
  have begins := alike.isPrefixOf "</" (by decide)
  have named := (alike.drop 2).namesTag name seen
  simp only [Markup.closes, begins, named]

theorem closing? (alike : Alike tagChars t u) (name : Text)
    (seen : ∀ x ∈ name, x.isOneOf tagChars) : Markup.closing? name t = Markup.closing? name u := by
  induction alike with
  | nil => rfl
  | cons same rest ih =>
    have here := closes (.cons same rest) name seen
    simp only [Markup.closing?, here, ih]

theorem quoteAfter_congr {s s' : Sym} (same : s.among markChars = s'.among markChars)
    {quote : Option Sym} (quotes : ∀ q, quote = some q → Markup.isQuote q) :
    Markup.quoteAfter quote s = Markup.quoteAfter quote s' ∧
      ∀ q, Markup.quoteAfter quote s = some q → Markup.isQuote q := by
  have seen : ∀ q, Markup.isQuote q → q.isOneOf markChars :=
    fun q found => Sym.isOneOf_mono (by decide) found
  cases quote with
  | none =>
    have sort : Markup.isQuote s = Markup.isQuote s' := Sym.isOneOf_congr same (by decide)
    by_cases found : Markup.isQuote s
    · have equal : s' = s := (Sym.eq_congr same (seen s found)).mp rfl
      subst equal
      simp [Markup.quoteAfter, found]
    · simp [Markup.quoteAfter, ← sort, found]
  | some q =>
    have isQuote := quotes q rfl
    have equal := Sym.eq_congr same (seen q isQuote)
    simp only [Markup.quoteAfter, equal, true_and]
    intro q' still
    split at still
    · cases still
    · cases still
      exact isQuote

theorem tagEnd? (alike : Alike markChars t u) {quote : Option Sym}
    (quotes : ∀ q, quote = some q → Markup.isQuote q) :
    Markup.tagEnd? quote t = Markup.tagEnd? quote u := by
  induction alike generalizing quote with
  | nil => rfl
  | cons same rest ih =>
    obtain ⟨after, quotes'⟩ := quoteAfter_congr same quotes
    have here := Sym.eq_congr same (x := .scalar '>') (by decide)
    rw [Markup.tagEnd_cons, Markup.tagEnd_cons, ih quotes', after]
    simp only [here]

end Text.Alike

namespace Text

variable {page : Text}

theorem lower_alike_asciiLower (plain : Sym.dottedI ∉ page) :
    Alike tagChars page.lower (page.map Sym.asciiLower) :=
  alike_iff_map.mpr (lower_among plain)

theorem alike_of_blind {cs : List Char} (blind : ∀ s : Sym, s.asciiLower.among cs = s.among cs)
    (t : Text) : Alike cs (t.map Sym.asciiLower) t := by
  rw [alike_iff_map, List.map_map]
  exact List.map_congr_left fun s _ => blind s

theorem asciiLower_alike (t : Text) : Alike punctuation (t.map Sym.asciiLower) t :=
  alike_of_blind (Sym.asciiLower_blind (by decide)) t

theorem lower_alike_page (plain : Sym.dottedI ∉ page) : Alike punctuation page.lower page := by
  have folded : Alike punctuation page.lower (page.map Sym.asciiLower) :=
    List.Forall₂.imp (fun _ _ same => Sym.among_mono same (by decide))
      (lower_alike_asciiLower plain)
  rw [alike_iff_map] at folded ⊢
  exact folded.trans (alike_iff_map.mp page.asciiLower_alike)

end Text

end Unbundle
