import Mathlib.Data.List.Basic
import Unbundle.Store

namespace Unbundle

namespace Sym

theorem code_scalar_ne (c : Char) (low : Fin 128) : c.toNat ≠ 0xDC80 + low.val := by
  have valid := c.valid
  have bound := low.isLt
  simp only [UInt32.isValidChar, Nat.isValidChar] at valid
  change c.toNat < _ ∨ _ < c.toNat ∧ _ at valid
  omega

theorem code_injective : Function.Injective Sym.code := by
  intro a b same
  cases a with
  | scalar c =>
    cases b with
    | scalar d => exact congrArg _ (Char.toNat_inj.mp same)
    | raw low => exact absurd same (code_scalar_ne c low)
  | raw low =>
    cases b with
    | scalar d => exact absurd same.symm (code_scalar_ne d low)
    | raw high => exact congrArg _ (Fin.ext (Nat.add_left_cancel same))

instance : LE Sym := ⟨fun a b => a.code ≤ b.code⟩

instance : Std.IsLinearOrder Sym where
  le_refl a := Nat.le_refl a.code
  le_trans _ _ _ := Nat.le_trans
  le_antisymm _ _ ab ba := code_injective (Nat.le_antisymm ab ba)
  le_total a b := Nat.le_total a.code b.code

instance : Std.LawfulOrderLT Sym where
  lt_iff _ _ := Nat.lt_iff_le_and_not_ge

end Sym

theorem pairwise_lt_mergeSort {listed : List Place} (distinct : listed.Nodup) :
    (listed.mergeSort fun a b => a ≤ b).Pairwise (· < ·) := by
  have trans (a b c : Place) (ab : decide (a ≤ b)) (bc : decide (b ≤ c)) : decide (a ≤ c) :=
    decide_eq_true (List.le_trans (of_decide_eq_true ab) (of_decide_eq_true bc))
  have total (a b : Place) : decide (a ≤ b) || decide (b ≤ a) := by
    simpa using List.le_total a b
  have sorted := List.pairwise_mergeSort trans total listed
  have distinct := (List.mergeSort_perm listed fun a b => a ≤ b).nodup_iff.mpr distinct
  refine (sorted.and distinct).imp fun both => ?_
  exact (List.le_iff_lt_or_eq.mp (of_decide_eq_true both.1)).resolve_right both.2

end Unbundle
