import Unbundle.Proofs.Text.Case
import Unbundle.Text

namespace Unbundle

namespace Sym

def isLetter : Sym → Bool
  | .scalar c => c.isAlpha
  | .raw _ => false

theorem letter_codes : ∀ n < 26, (Char.ofNat (0x61 + n)).toNat = 0x61 + n ∧
    (Char.ofNat (0x41 + n)).toNat = 0x41 + n := by
  decide

theorem asciiLower_blind {α : Type} {view : Sym → α}
    (capitals : ∀ n < 26,
      view (.scalar (Char.ofNat (0x61 + n))) = view (.scalar (Char.ofNat (0x41 + n))))
    (s : Sym) : view s.asciiLower = view s := by
  cases s with
  | raw low => rfl
  | scalar c =>
    by_cases capital : c.isUpper
    · have first : 0x41 ≤ c.toNat := UInt32.le_iff_toNat_le.mp (of_decide_eq_true capital).1
      have last : c.toNat ≤ 0x5A := UInt32.le_iff_toNat_le.mp (of_decide_eq_true capital).2
      have here := capitals (c.toNat - 0x41) (by omega)
      rw [show 0x61 + (c.toNat - 0x41) = c.toNat + 32 by omega, Nat.add_sub_of_le first,
        Char.ofNat_toNat] at here
      rw [asciiLower, Char.toLower_eq_of_isUpper capital]
      exact here
    · rw [asciiLower, Char.toLower_eq_of_not_isUpper capital]

@[simp]
theorem isBlank_asciiLower (s : Sym) : s.asciiLower.isBlank = s.isBlank :=
  asciiLower_blind (by decide) s

@[simp]
theorem isCased_asciiLower (s : Sym) : s.asciiLower.isCased = s.isCased :=
  asciiLower_blind (by decide +kernel) s

theorem ignorableRuns_apart : ∀ run ∈ ignorableRuns,
    run.2 < 0x41 ∨ 0x5A < run.1 ∧ run.2 < 0x61 ∨ 0x7A < run.1 := by
  decide +kernel

theorem letter_not_ignorable {code : Nat}
    (letter : 0x41 ≤ code ∧ code ≤ 0x5A ∨ 0x61 ≤ code ∧ code ≤ 0x7A) :
    inRuns ignorableRuns code = false := by
  apply List.any_eq_false.mpr
  intro run member
  have apart := ignorableRuns_apart run member
  simp only [Bool.and_eq_true, decide_eq_true_eq]
  omega

@[simp]
theorem isCaseIgnorable_asciiLower (s : Sym) :
    s.asciiLower.isCaseIgnorable = s.isCaseIgnorable := by
  apply asciiLower_blind
  intro n bound
  obtain ⟨small, capital⟩ := letter_codes n bound
  simp only [isCaseIgnorable, code, small, capital]
  rw [letter_not_ignorable (by omega), letter_not_ignorable (by omega)]

theorem lower_ascii {c : Char} (ascii : c.toNat < 0x80) :
    (Sym.scalar c).lower = [(Sym.scalar c).asciiLower] := by
  rw [lower_scalar, lowerChar_ascii ascii, asciiLower]
  intro dotted
  cases dotted
  contradiction

@[simp]
theorem lower_asciiLower (s : Sym) : s.asciiLower.lower = s.lower := by
  have folded : ∀ n < 26, asciiLower (.scalar (Char.ofNat (0x61 + n))) =
      asciiLower (.scalar (Char.ofNat (0x41 + n))) := by
    decide
  apply asciiLower_blind
  intro n bound
  obtain ⟨small, capital⟩ := letter_codes n bound
  rw [lower_ascii (by omega), lower_ascii (by omega), folded n bound]

@[simp]
theorem asciiLower_asciiLower (s : Sym) : s.asciiLower.asciiLower = s.asciiLower :=
  asciiLower_blind (by decide) s

theorem asciiLower_eq_iff (s : Sym) {x : Sym} (plain : x.isLetter = false) :
    s.asciiLower = x ↔ s = x := by
  cases s with
  | raw low => rfl
  | scalar c =>
    have fixed : ∀ d : Char, d.isAlpha = false → (Sym.scalar d).asciiLower = .scalar d := by
      intro d noLetter
      rw [asciiLower, Char.toLower_eq_of_not_isUpper]
      intro capital
      simp [Char.isAlpha, capital] at noLetter
    constructor
    · intro found
      subst found
      have noLetter : c.toLower.isAlpha = false := plain
      rw [Char.isAlpha_toLower_eq_isAlpha] at noLetter
      exact (fixed c noLetter).symm
    · intro found
      subst found
      exact fixed c plain

theorem beq_asciiLower (s : Sym) {x : Sym} (plain : x.isLetter = false) :
    (s.asciiLower == x) = (s == x) := by
  rw [Bool.eq_iff_iff, beq_iff_eq, beq_iff_eq, s.asciiLower_eq_iff plain]

theorem bne_asciiLower (s : Sym) {x : Sym} (plain : x.isLetter = false) :
    (s.asciiLower != x) = (s != x) := by
  rw [bne, bne, s.beq_asciiLower plain]

end Sym

namespace Text

/-- Texts that differ in the case of ASCII letters only. -/
def SameLetters (t u : Text) : Prop :=
  List.Forall₂ (fun s s' => s.asciiLower = s'.asciiLower) t u

theorem sameLetters_iff {t u : Text} :
    t.SameLetters u ↔ t.map Sym.asciiLower = u.map Sym.asciiLower := by
  rw [← List.forall₂_eq_eq_eq, List.forall₂_map_left_iff, List.forall₂_map_right_iff]
  rfl

theorem rel_sameLetters {t? u? : Option Text}
    (same : t?.map (List.map Sym.asciiLower) = u?.map (List.map Sym.asciiLower)) :
    Option.Rel SameLetters t? u? := by
  cases t? with
  | none =>
    cases u? with
    | none => exact .none
    | some u => cases same
  | some t =>
    cases u? with
    | none => cases same
    | some u => exact .some (sameLetters_iff.mpr (Option.some.inj same))

theorem lengths_of_rel {t? u? : Option Text} (same : Option.Rel SameLetters t? u?) :
    t?.map List.length = u?.map List.length := by
  cases same with
  | none => rfl
  | some letters => exact congrArg some letters.length_eq

theorem startsCased_asciiLower (t : Text) : startsCased (t.map Sym.asciiLower) = startsCased t := by
  induction t with
  | nil => rfl
  | cons s rest ih => simp [startsCased, ih]

theorem lowerAfter_asciiLower (cased : Bool) (t : Text) :
    lowerAfter cased (t.map Sym.asciiLower) = lowerAfter cased t := by
  induction t generalizing cased with
  | nil => rfl
  | cons s rest ih =>
    have sigma := s.asciiLower_eq_iff (x := .scalar 'Σ') (by decide)
    simp only [List.map_cons, lowerAfter, sigma, startsCased_asciiLower, Sym.lower_asciiLower,
      Sym.isCaseIgnorable_asciiLower, Sym.isCased_asciiLower, ih]

theorem lower_asciiLower (t : Text) : Text.lower (t.map Sym.asciiLower) = t.lower :=
  lowerAfter_asciiLower false t

theorem isBlank_asciiLower (t : Text) : isBlank (t.map Sym.asciiLower) = t.isBlank := by
  simp [isBlank, Function.comp_def]

theorem slice_asciiLower (t : Text) (start stop : Nat) :
    slice (t.map Sym.asciiLower) start stop = (t.slice start stop).map Sym.asciiLower := by
  simp [slice]

theorem joinWith_asciiLower (separator : Text) (pieces : List Text) :
    (joinWith separator pieces).map Sym.asciiLower =
      joinWith (separator.map Sym.asciiLower) (pieces.map (List.map Sym.asciiLower)) := by
  rw [joinWith, joinWith, List.intercalate, List.intercalate, List.map_flatten]
  congr 1
  induction pieces with
  | nil => rfl
  | cons piece pieces ih =>
    cases pieces with
    | nil => rfl
    | cons next rest => simpa using ih

section Trimming

variable {p : Sym → Bool} (blind : ∀ s, p s.asciiLower = p s)

include blind

theorem takeWhile_asciiLower (t : Text) :
    (t.map Sym.asciiLower).takeWhile p = (t.takeWhile p).map Sym.asciiLower := by
  rw [List.takeWhile_map, Function.comp_def]
  simp only [blind]

theorem dropWhile_asciiLower (t : Text) :
    (t.map Sym.asciiLower).dropWhile p = (t.dropWhile p).map Sym.asciiLower := by
  rw [List.dropWhile_map, Function.comp_def]
  simp only [blind]

theorem trimRight_asciiLower (t : Text) :
    trimRight p (t.map Sym.asciiLower) = (trimRight p t).map Sym.asciiLower := by
  rw [trimRight, ← List.map_reverse, dropWhile_asciiLower blind, ← List.map_reverse, trimRight]

theorem trim_asciiLower (t : Text) :
    trim p (t.map Sym.asciiLower) = (trim p t).map Sym.asciiLower := by
  rw [trim, dropWhile_asciiLower blind, trimRight_asciiLower blind, trim]

end Trimming

end Text

end Unbundle
