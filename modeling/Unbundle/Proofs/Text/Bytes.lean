import Mathlib.Data.List.Basic
import Unbundle.Text.Utf8

namespace Unbundle.Utf8

theorem isTail_bounds {b : UInt8} (tail : isTail b) : 0x80 ≤ b.toNat ∧ b.toNat ≤ 0xBF := by
  rw [isTail, Bool.and_eq_true, decide_eq_true_iff, decide_eq_true_iff, UInt8.le_iff_toNat_le,
    UInt8.le_iff_toNat_le] at tail
  exact tail

theorem isSecondOfThree_bounds {first : Nat} {b : UInt8} (second : isSecondOfThree first b) :
    isTail b ∧ (first = 0xE0 → 0xA0 ≤ b.toNat) ∧ (first = 0xED → b.toNat ≤ 0x9F) := by
  simp only [isSecondOfThree, Bool.and_eq_true, Bool.or_eq_true, bne_iff_ne, decide_eq_true_iff,
    UInt8.le_iff_toNat_le] at second
  obtain ⟨⟨tail, low⟩, high⟩ := second
  exact ⟨tail, low.resolve_left ∘ not_not.mpr, high.resolve_left ∘ not_not.mpr⟩

theorem isSecondOfFour_bounds {first : Nat} {b : UInt8} (second : isSecondOfFour first b) :
    isTail b ∧ (first = 0xF0 → 0x90 ≤ b.toNat) ∧ (first = 0xF4 → b.toNat ≤ 0x8F) := by
  simp only [isSecondOfFour, Bool.and_eq_true, Bool.or_eq_true, bne_iff_ne, decide_eq_true_iff,
    UInt8.le_iff_toNat_le] at second
  obtain ⟨⟨tail, low⟩, high⟩ := second
  exact ⟨tail, low.resolve_left ∘ not_not.mpr, high.resolve_left ∘ not_not.mpr⟩

theorem ofNat_eq {n : Nat} {b : UInt8} (same : n = b.toNat) : UInt8.ofNat n = b := by
  rw [same, UInt8.ofNat_toNat]

theorem toNat_of_valid {n : Nat} (valid : n.isValidChar) : (Char.ofNat n).toNat = n := by
  rw [Char.ofNat, dif_pos valid]
  rfl

/-- The bytes are the form of a scalar with this number. -/
def Spells (n : Nat) (bytes : List UInt8) : Prop := n.isValidChar ∧ scalarBytes n = bytes

section Widths

variable {b c d e : UInt8}

theorem spells_one (ascii : b.toNat < 0x80) : Spells b.toNat [b] := by
  refine ⟨.inl (by omega), ?_⟩
  rw [scalarBytes, if_pos ascii, UInt8.ofNat_toNat]

theorem spells_two (low : 0xC2 ≤ b.toNat) (high : b.toNat < 0xE0) (second : isTail c) :
    Spells ((b.toNat - 0xC0) * 64 + low6 c) [b, c] := by
  have second := isTail_bounds second
  unfold low6
  refine ⟨.inl (by omega), ?_⟩
  rw [scalarBytes, if_neg (by omega), if_pos (by omega), ofNat_eq (b := b) (by omega),
    ofNat_eq (b := c) (by omega)]

theorem spells_three (low : 0xE0 ≤ b.toNat) (high : b.toNat < 0xF0)
    (second : isSecondOfThree b.toNat c) (third : isTail d) :
    Spells ((b.toNat - 0xE0) * 4096 + low6 c * 64 + low6 d) [b, c, d] := by
  obtain ⟨second, noShorter, noSurrogate⟩ := isSecondOfThree_bounds second
  have second := isTail_bounds second
  have third := isTail_bounds third
  unfold low6
  constructor
  · unfold Nat.isValidChar
    omega
  · rw [scalarBytes, if_neg (by omega), if_neg (by omega), if_pos (by omega),
      ofNat_eq (b := b) (by omega), ofNat_eq (b := c) (by omega), ofNat_eq (b := d) (by omega)]

theorem spells_four (low : 0xF0 ≤ b.toNat) (high : b.toNat < 0xF5)
    (second : isSecondOfFour b.toNat c) (third : isTail d) (fourth : isTail e) :
    Spells ((b.toNat - 0xF0) * 262144 + low6 c * 4096 + low6 d * 64 + low6 e) [b, c, d, e] := by
  obtain ⟨second, noShorter, noGreater⟩ := isSecondOfFour_bounds second
  have second := isTail_bounds second
  have third := isTail_bounds third
  have fourth := isTail_bounds fourth
  unfold low6
  constructor
  · unfold Nat.isValidChar
    omega
  · rw [scalarBytes, if_neg (by omega), if_neg (by omega), if_neg (by omega),
      ofNat_eq (b := b) (by omega), ofNat_eq (b := c) (by omega), ofNat_eq (b := d) (by omega),
      ofNat_eq (b := e) (by omega)]

end Widths

theorem scalar?_spells {b : UInt8} {rest : List UInt8} {n tails : Nat}
    (read : scalar? b.toNat rest = some (n, tails)) : Spells n (b :: rest.take tails) := by
  unfold scalar? at read
  split at read
  · rename_i ascii
    cases read
    exact spells_one ascii
  split at read
  · cases read
  split at read
  · split at read
    · split at read
      · rename_i second
        obtain ⟨rfl, rfl⟩ := Prod.mk.inj (Option.some.inj read)
        exact spells_two (by omega) (by omega) second
      · cases read
    · cases read
  split at read
  · split at read
    · split at read
      · rename_i wellFormed
        obtain ⟨rfl, rfl⟩ := Prod.mk.inj (Option.some.inj read)
        obtain ⟨second, third⟩ := Bool.and_eq_true_iff.mp wellFormed
        exact spells_three (by omega) (by omega) second third
      · cases read
    · cases read
  split at read
  · split at read
    · split at read
      · rename_i wellFormed
        obtain ⟨rfl, rfl⟩ := Prod.mk.inj (Option.some.inj read)
        obtain ⟨wellFormed, fourth⟩ := Bool.and_eq_true_iff.mp wellFormed
        obtain ⟨second, third⟩ := Bool.and_eq_true_iff.mp wellFormed
        exact spells_four (by omega) (by omega) second third fourth
      · cases read
    · cases read
  · cases read

theorem not_ascii_of_scalar? {first : Nat} {rest : List UInt8}
    (unread : scalar? first rest = none) :
    0x80 ≤ first := by
  by_contra ascii
  unfold scalar? at unread
  rw [if_pos (by omega)] at unread
  cases unread

theorem encode_cons (s : Sym) (t : Text) : encode (s :: t) = symBytes s ++ encode t := rfl

theorem encode_append (t u : Text) : encode (t ++ u) = encode t ++ encode u :=
  List.flatMap_append

theorem encode_decode (bytes : List UInt8) : encode (decode bytes) = bytes := by
  fun_induction decode bytes with
  | case1 => rfl
  | case2 b rest n tails read ih =>
    obtain ⟨valid, form⟩ := scalar?_spells read
    rw [encode_cons, ih, symBytes, toNat_of_valid valid, form, List.cons_append,
      List.take_append_drop]
  | case3 b rest unread ih =>
    have high := not_ascii_of_scalar? unread
    have byte := b.toNat_lt
    rw [encode_cons, ih, symBytes]
    refine congrArg (· :: rest) (ofNat_eq ?_)
    rw [Fin.val_ofNat]
    omega

end Unbundle.Utf8
