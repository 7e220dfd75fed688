import Mathlib
import Unbundle.Text.Lower

namespace Unbundle

namespace Sym

def dottedI : Sym := .scalar '\u0130'

def isAscii (s : Sym) : Bool := s.code < 0x80

def asciiLower : Sym → Sym
  | .scalar c => .scalar c.toLower
  | .raw low => .raw low

/-- A symbol to a reader that tells only some symbols apart. -/
def among (cs : List Char) (s : Sym) : Option Sym := if s.isOneOf cs then some s else none

end Sym

/-- What tags, comments and declarations are recognised by. The letter `k` stands in no tag name: it
    is the lower case of U+212A, too. -/
def tagChars : List Char :=
  ['<', '>', '!', '?', '/', '-', ' ', '\t', '\n', '\r', '\x0c', 'a', 'b', 'c', 'd', 'e', 'h', 'i',
    'l', 'm', 'o', 'p', 'r', 's', 't', 'y']

theorem tagChars_ascii {c : Char} (member : c ∈ tagChars) :
    0 < c.toNat ∧ c.toNat < 0x80 ∧ c.toNat ≠ 0x6B := by
  have all : ∀ c ∈ tagChars, 0 < c.toNat ∧ c.toNat < 0x80 ∧ c.toNat ≠ 0x6B := by simp [tagChars]
  exact all c member

theorem lowerShift_cases (code : Nat) (runs : List CaseRun) :
    lowerShift code runs = 0 ∨
      ∃ run ∈ runs, run.first ≤ code ∧ code ≤ run.last ∧ lowerShift code runs = run.shift := by
  induction runs with
  | nil => exact .inl rfl
  | cons run runs ih =>
    simp only [lowerShift]
    split
    · exact .inl rfl
    · rename_i reached
      split
      · rename_i inside
        exact .inr ⟨run, List.mem_cons_self, Nat.le_of_not_lt reached, inside.1, rfl⟩
      · rcases ih with zero | ⟨run', member, first, last, shift⟩
        · exact .inl zero
        · exact .inr ⟨run', List.mem_cons_of_mem _ member, first, last, shift⟩

theorem lowerRuns_apart : ∀ run ∈ lowerRuns, run.last < 0x80 ∨ 0x80 ≤ run.first + run.shift ∨
    run.first = 0x212A ∧ run.last = 0x212A ∧ run.shift = -0x20BF := by
  decide +kernel

theorem lowerCode_apart {code : Nat} (notAscii : 0x80 ≤ code) :
    0x80 ≤ (code + lowerShift code lowerRuns).toNat ∨
      (code + lowerShift code lowerRuns).toNat = 0x6B := by
  rcases lowerShift_cases code lowerRuns with zero | ⟨run, member, first, last, shift⟩
  · rw [zero]
    omega
  · rw [shift]
    rcases lowerRuns_apart run member with ascii | apart | ⟨kelvin, kelvin', kelvinShift⟩
    · omega
    · omega
    · omega

theorem lowerChar_apart {c : Char} (notAscii : 0x80 ≤ c.toNat) : lowerChar c ∉ tagChars := by
  intro member
  have ascii := tagChars_ascii member
  have apart := lowerCode_apart notAscii
  rw [lowerChar, Char.toNat_ofNat] at ascii
  split at ascii
  · omega
  · omega

theorem lowerChar_ascii {c : Char} (ascii : c.toNat < 0x80) : lowerChar c = c.toLower := by
  have all : ∀ n < 0x80, lowerChar (Char.ofNat n) = (Char.ofNat n).toLower := by decide
  simpa using all c.toNat ascii

theorem toLower_apart {c : Char} (notAscii : 0x80 ≤ c.toNat) : c.toLower = c := by
  apply Char.toLower_eq_of_not_isUpper
  intro capital
  have last := (of_decide_eq_true capital).2
  have bound : c.toNat ≤ 0x5A := UInt32.le_iff_toNat_le.mp last
  omega

namespace Sym

theorem among_of_not_mem {cs : List Char} {c : Char} (missing : c ∉ cs) :
    (Sym.scalar c).among cs = none := by
  simp [among, isOneOf, missing]

theorem isAscii_eq_false {c : Char} : (Sym.scalar c).isAscii = false ↔ 0x80 ≤ c.toNat :=
  decide_eq_false_iff_not.trans Nat.not_lt

theorem among_eq_none {cs : List Char} (ascii : ∀ c ∈ cs, c.toNat < 0x80) {s : Sym}
    (notAscii : s.isAscii = false) : s.among cs = none := by
  cases s with
  | raw low => rfl
  | scalar c =>
    apply among_of_not_mem
    intro member
    have below := ascii c member
    have apart := isAscii_eq_false.mp notAscii
    omega

theorem among_tagChars {s : Sym} (notAscii : s.isAscii = false) : s.among tagChars = none :=
  among_eq_none (fun _ member => (tagChars_ascii member).2.1) notAscii

theorem asciiLower_of_not_ascii {s : Sym} (notAscii : s.isAscii = false) : s.asciiLower = s := by
  cases s with
  | raw low => rfl
  | scalar c => rw [asciiLower, toLower_apart (isAscii_eq_false.mp notAscii)]

theorem lower_scalar {c : Char} (plain : Sym.scalar c ≠ dottedI) :
    (Sym.scalar c).lower = [.scalar (lowerChar c)] := by
  unfold lower
  split
  · contradiction
  · rename_i same
    cases same
    rfl
  · contradiction

theorem lower_among {s : Sym} (plain : s ≠ dottedI) :
    s.lower.map (among tagChars) = [s.asciiLower.among tagChars] := by
  cases s with
  | raw low => rfl
  | scalar c =>
    rw [lower_scalar plain, List.map_singleton]
    by_cases ascii : c.toNat < 0x80
    · rw [lowerChar_ascii ascii]
      rfl
    · have notAscii := Nat.le_of_not_lt ascii
      have apart := isAscii_eq_false.mpr notAscii
      rw [among_of_not_mem (lowerChar_apart notAscii), asciiLower_of_not_ascii apart,
        among_tagChars apart]

end Sym

namespace Text

theorem lowerAfter_among (cased : Bool) (t : Text) :
    (lowerAfter cased t).map (Sym.among tagChars) =
      t.flatMap fun s => s.lower.map (Sym.among tagChars) := by
  induction t generalizing cased with
  | nil => rfl
  | cons s rest ih =>
    rw [lowerAfter, List.map_append, ih, List.flatMap_cons]
    congr 1
    split
    · rename_i sigma
      subst sigma
      split <;> decide
    · rfl

theorem lower_among {t : Text} (plain : Sym.dottedI ∉ t) :
    t.lower.map (Sym.among tagChars) = (t.map Sym.asciiLower).map (Sym.among tagChars) := by
  rw [lower, lowerAfter_among]
  induction t with
  | nil => rfl
  | cons s rest ih =>
    obtain ⟨here, later⟩ := not_or.mp (mt List.mem_cons.mpr plain)
    rw [List.flatMap_cons, Sym.lower_among (Ne.symm here), ih later]
    rfl

end Text

end Unbundle
