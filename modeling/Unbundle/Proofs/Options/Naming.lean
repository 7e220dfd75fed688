import Unbundle.Options.Coercion
import Unbundle.Proofs.Options.Resolved
import Unbundle.Proofs.Path.Slug

namespace Unbundle

variable {t : Text}

namespace Text

/-- Something stands in the text, and no blanks stand around it. -/
structure IsTidy (t : Text) : Prop where
  ink : ∃ s ∈ t, s.isBlank = false
  first : ∀ s, t.head? = some s → s.isBlank = false
  last : ∀ s, t.getLast? = some s → s.isBlank = false

theorem IsTidy.trimBlank (tidy : t.IsTidy) : t.trimBlank = t := trim_exact tidy.first tidy.last

end Text

theorem Sym.IsAlnum.ink {s : Sym} (alnum : s.IsAlnum) : s.isBlank = false := by
  obtain ⟨c, rfl, letter⟩ := alnum
  have bounds : 0x30 ≤ (Sym.scalar c).code ∧ (Sym.scalar c).code ≤ 0x7A := by
    rcases letter with ⟨low, high⟩ | ⟨low, high⟩
    · exact ⟨Nat.le_trans (by decide) (UInt32.le_iff_toNat_le.mp low),
        UInt32.le_iff_toNat_le.mp high⟩
    · exact ⟨UInt32.le_iff_toNat_le.mp low,
        Nat.le_trans (UInt32.le_iff_toNat_le.mp high) (by decide)⟩
  have all : ∀ n ≤ 0x7A, 0x30 ≤ n → ∀ run ∈ blankRuns, ¬ (run.1 ≤ n ∧ n ≤ run.2) := by decide
  rw [Sym.isBlank, List.any_eq_false]
  intro run listed within
  exact all _ bounds.2 bounds.1 run listed (by simpa using within)

theorem IsPackageName.tidy (isName : IsPackageName t) : t.IsTidy := by
  obtain ⟨s, first, alnum⟩ := isName.first
  obtain ⟨s', last, alnum'⟩ := isName.last
  refine ⟨⟨s, List.mem_of_head? first, alnum.ink⟩, fun r head => ?_, fun r ends => ?_⟩
  · cases first.symm.trans head
    exact alnum.ink
  · cases last.symm.trans ends
    exact alnum'.ink

namespace Config

/-- Options that ask for what was resolved. -/
def options (c : Config) : Options :=
  .typed (some c.outputDir) c.createZip c.appName c.appVersion c.extractAll

section Schema

variable [Schema]

end Schema

end Config

namespace Options

variable {output : Option Path} {zip all : Bool} {name : Option Text} {version : Text}
  {input : Path}

section Schema

variable [Schema]

end Schema

end Options

end Unbundle
