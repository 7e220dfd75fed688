import Unbundle.Path.Names
import Unbundle.Proofs.Text.Letters
import Unbundle.Proofs.Text.Slice

namespace Unbundle

def Sym.IsAlnum (s : Sym) : Prop :=
  ∃ c : Char, s = .scalar c ∧ ('a' ≤ c ∧ c ≤ 'z' ∨ '0' ≤ c ∧ c ≤ '9')

/-- Small letters, digits, dots, underscores and dashes, with a letter or digit at both ends. -/
structure IsPackageName (name : Text) : Prop where
  symbols : ∀ s ∈ name, s.IsAlnum ∨ s = .scalar '.' ∨ s = .scalar '_' ∨ s = .scalar '-'
  first : ∃ s, name.head? = some s ∧ s.IsAlnum
  last : ∃ s, name.getLast? = some s ∧ s.IsAlnum

variable {name : Text} {s : Sym}

theorem IsPackageName.ne_nil (isName : IsPackageName name) : name ≠ [] := by
  rintro rfl
  obtain ⟨s, first, -⟩ := isName.first
  cases first

namespace Path

def isMark (s : Sym) : Bool := s.isOneOf ['-', '.', '_']

theorem isMark_iff : isMark s ↔ s = .scalar '.' ∨ s = .scalar '_' ∨ s = .scalar '-' := by
  cases s with
  | raw low => simp [isMark, Sym.isOneOf]
  | scalar c =>
    simp only [isMark, Sym.isOneOf, List.contains_iff_mem, List.mem_cons, List.not_mem_nil,
      or_false, Sym.scalar.injEq]
    tauto

theorem isSlugSym_iff : isSlugSym s ↔ s.IsAlnum ∨ isMark s := by
  rw [isMark_iff]
  cases s with
  | raw low => simp [isSlugSym, Sym.IsAlnum]
  | scalar c =>
    simp only [isSlugSym, Sym.IsAlnum, Bool.or_eq_true, Bool.and_eq_true, decide_eq_true_eq,
      beq_iff_eq, Sym.scalar.injEq, exists_eq_left', or_assoc]

theorem alnum_not_mark (alnum : s.IsAlnum) : isMark s = false := by
  obtain ⟨c, rfl, letter⟩ := alnum
  rw [Bool.eq_false_iff, ne_eq, isMark_iff]
  rintro (same | same | same) <;> cases same <;> revert letter <;> decide

theorem lower_kept (slug : isSlugSym s) : s.lower = [s] ∧ s ≠ .scalar 'Σ' := by
  cases s with
  | raw low => exact ⟨rfl, Sym.noConfusion⟩
  | scalar c =>
    have all : ∀ n < 0x80, isSlugSym (.scalar (Char.ofNat n)) →
        (Sym.scalar (Char.ofNat n)).asciiLower = .scalar (Char.ofNat n) := by
      decide
    have ascii : c.toNat < 0x80 := by
      rcases isSlugSym_iff.mp slug with ⟨d, same, small | digit⟩ | mark
      · cases same
        exact Nat.lt_of_le_of_lt (UInt32.le_iff_toNat_le.mp small.2) (by decide)
      · cases same
        exact Nat.lt_of_le_of_lt (UInt32.le_iff_toNat_le.mp digit.2) (by decide)
      · rcases isMark_iff.mp mark with same | same | same <;> cases same <;> decide
    have kept := all c.toNat ascii
    rw [Char.ofNat_toNat] at kept
    refine ⟨by rw [Sym.lower_ascii ascii, kept slug], ?_⟩
    rintro ⟨rfl⟩
    exact absurd ascii (by decide)

theorem lower_slug (slug : ∀ s ∈ name, isSlugSym s) : name.lower = name := by
  have after (cased : Bool) : Text.lowerAfter cased name = name := by
    induction name generalizing cased with
    | nil => rfl
    | cons s rest ih =>
      rw [List.forall_mem_cons] at slug
      obtain ⟨kept, notSigma⟩ := lower_kept slug.1
      rw [Text.lowerAfter, if_neg notSigma, kept, ih slug.2]
      rfl
  exact after false

theorem dashed_slug (slug : ∀ s ∈ name, isSlugSym s) (inRun : Bool) :
    dashed inRun name = name := by
  induction name generalizing inRun with
  | nil => rfl
  | cons s rest ih =>
    rw [List.forall_mem_cons] at slug
    rw [dashed, if_pos slug.1, ih slug.2]

theorem slug_of_mem_dashed {inRun : Bool} (member : s ∈ dashed inRun name) : isSlugSym s := by
  induction name generalizing inRun with
  | nil => cases member
  | cons x rest ih =>
    rw [dashed] at member
    split at member
    · rename_i slug
      rcases List.mem_cons.mp member with rfl | later
      · exact slug
      · exact ih later
    · split at member
      · exact ih member
      · rcases List.mem_cons.mp member with rfl | later
        · decide
        · exact ih later

theorem slug_isPackageName (some : slug name ≠ []) : IsPackageName (slug name) := by
  have symbols : ∀ s ∈ slug name, isSlugSym s :=
    fun s member => slug_of_mem_dashed (Text.trim_subset member)
  have alnum {s : Sym} (member : s ∈ slug name) (noMark : isMark s = false) : s.IsAlnum := by
    refine (isSlugSym_iff.mp (symbols s member)).resolve_right ?_
    simp [noMark]
  constructor
  · intro s member
    rw [← isMark_iff]
    exact isSlugSym_iff.mp (symbols s member)
  · have first := List.head?_eq_some_head some
    exact ⟨_, first, alnum (List.head_mem some) (Text.trim_first first)⟩
  · have last := List.getLast?_eq_some_getLast some
    exact ⟨_, last, alnum (List.getLast_mem some) (Text.trim_last last)⟩

theorem slug_of_isPackageName (isName : IsPackageName name) : slug name = name := by
  have symbols : ∀ s ∈ name, isSlugSym s := by
    intro s member
    rw [isSlugSym_iff, isMark_iff]
    exact isName.symbols s member
  rw [slug, lower_slug symbols, dashed_slug symbols]
  refine Text.trim_exact (fun s first => ?_) fun s last => ?_
  · obtain ⟨s', first', alnum⟩ := isName.first
    cases first.symm.trans first'
    exact alnum_not_mark alnum
  · obtain ⟨s', last', alnum⟩ := isName.last
    cases last.symm.trans last'
    exact alnum_not_mark alnum

theorem appNameOf_isPackageName (name : Text) : IsPackageName (appNameOf name) := by
  unfold appNameOf
  split
  · have letter (c : Char) (small : 'a' ≤ c ∧ c ≤ 'z') : (Sym.scalar c).IsAlnum :=
      ⟨c, rfl, .inl small⟩
    refine ⟨?_, ⟨_, rfl, letter 'e' (by decide)⟩, _, rfl, letter 'p' (by decide)⟩
    have symbols : ∀ s ∈ defaultAppName, isSlugSym s := by decide
    intro s member
    rw [← isMark_iff]
    exact isSlugSym_iff.mp (symbols s member)
  · rename_i some
    exact slug_isPackageName fun none => some (by rw [none]; rfl)

theorem appNameOf_eq_self_iff : appNameOf name = name ↔ IsPackageName name := by
  constructor
  · intro kept
    rw [← kept]
    exact appNameOf_isPackageName name
  · intro isName
    have kept := slug_of_isPackageName isName
    rw [appNameOf, kept, if_neg (by simpa using isName.ne_nil)]

theorem appName_of_ordinary {dir : Path} (ordinary : dir.isNameless = false) (locate : Locate) :
    dir.appName locate = .ok (appNameOf dir.name) := by
  rw [appName, named, ordinary]
  rfl

theorem ordinary_of_isPackageName {dir : Path} (isName : IsPackageName dir.name) :
    dir.isNameless = false := by
  obtain ⟨s, first, alnum⟩ := isName.first
  rw [isNameless, Bool.or_eq_false_iff, List.isEmpty_eq_false_iff, beq_eq_false_iff_ne]
  refine ⟨isName.ne_nil, fun up => ?_⟩
  rw [up] at first
  cases first
  exact absurd (alnum_not_mark alnum) (by decide)

/-- Whatever the output directory is called, the application gets a name of this form, and keeps it
    wherever a directory is called so. -/
theorem appName_packageName {dir : Path} (ordinary : dir.isNameless = false) (locate : Locate) :
    ∃ name, dir.appName locate = .ok name ∧ IsPackageName name ∧
      (∀ (locate' : Locate) (dir' : Path), dir'.name = name → dir'.appName locate' = .ok name) ∧
      (name = dir.name ↔ IsPackageName dir.name) := by
  have isName := appNameOf_isPackageName dir.name
  refine ⟨_, appName_of_ordinary ordinary locate, isName, ?_, appNameOf_eq_self_iff⟩
  intro locate' dir' called
  rw [← called] at isName
  rw [appName_of_ordinary (ordinary_of_isPackageName isName) locate',
    appNameOf_eq_self_iff.mpr isName, called]

theorem appName_packageName_of_kelvin :
    (⟨.slash, ["tmp", "-\u212A 2."]⟩ : Path).isNameless = false ∧
    ∀ locate, (⟨.slash, ["tmp", "-\u212A 2."]⟩ : Path).appName locate = .ok "k-2" ∧
      IsPackageName "k-2" ∧ (⟨.slash, ["tmp", "k-2"]⟩ : Path).appName locate = .ok "k-2" ∧
      ¬ IsPackageName "-\u212A 2." := by
  have ordinary : (⟨.slash, ["tmp", "-\u212A 2."]⟩ : Path).isNameless = false := by decide
  refine ⟨ordinary, fun locate => ?_⟩
  obtain ⟨name, derived, isName, again, kept⟩ := appName_packageName ordinary locate
  have short : name = "k-2" := by
    rw [appName_of_ordinary ordinary] at derived
    rw [← Except.ok.inj derived]
    decide +kernel
  subst short
  exact ⟨derived, isName, again locate _ rfl, fun whole => absurd (kept.mpr whole) (by decide)⟩

end Path

end Unbundle
