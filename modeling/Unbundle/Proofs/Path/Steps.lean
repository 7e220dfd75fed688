import Mathlib.Data.List.Basic
import Unbundle.Path.Names

namespace Unbundle

theorem Text.splitOn_mem {separator x : Sym} {t piece : Text} (listed : piece ∈ splitOn separator t)
    (member : x ∈ piece) : x ∈ t ∧ x ≠ separator := by
  induction t generalizing piece with
  | nil =>
    obtain rfl := List.mem_singleton.mp listed
    cases member
  | cons s rest ih =>
    have later {piece : Text} (listed : piece ∈ splitOn separator rest) (member : x ∈ piece) :
        x ∈ s :: rest ∧ x ≠ separator :=
      ⟨List.mem_cons_of_mem s (ih listed member).1, (ih listed member).2⟩
    rw [splitOn] at listed
    split at listed
    · rcases List.mem_cons.mp listed with rfl | listed
      · cases member
      · exact later listed member
    · rename_i other
      split at listed
      · obtain rfl := List.mem_singleton.mp listed
        obtain rfl := List.mem_singleton.mp member
        exact ⟨List.mem_cons_self, other⟩
      · rename_i first pieces split
        rcases List.mem_cons.mp listed with rfl | listed
        · rcases List.mem_cons.mp member with rfl | member
          · exact ⟨List.mem_cons_self, other⟩
          · exact later (split ▸ List.mem_cons_self) member
        · exact later (split ▸ List.mem_cons_of_mem first listed) member

theorem Text.splitOn_append {separator : Sym} {piece : Text} (plain : separator ∉ piece)
    (rest : Text) :
    splitOn separator (piece ++ separator :: rest) = piece :: splitOn separator rest := by
  induction piece with
  | nil => simp [splitOn]
  | cons x piece ih =>
    rw [List.mem_cons, not_or] at plain
    rw [List.cons_append, splitOn, if_neg (Ne.symm plain.1), ih plain.2]

theorem Text.splitOn_plain {separator : Sym} {piece : Text} (plain : separator ∉ piece) :
    splitOn separator piece = [piece] := by
  induction piece with
  | nil => rfl
  | cons x piece ih =>
    rw [List.mem_cons, not_or] at plain
    rw [splitOn, if_neg (Ne.symm plain.1), ih plain.2]

theorem Text.joinWith_cons (separator piece next : Text) (rest : List Text) :
    joinWith separator (piece :: next :: rest) =
      piece ++ separator ++ joinWith separator (next :: rest) := by
  simp [joinWith, List.intercalate]

theorem Text.joinWith_singleton (separator piece : Text) : joinWith separator [piece] = piece := by
  simp [joinWith, List.intercalate]

theorem Text.splitOn_joinWith {separator : Sym} {pieces : List Text}
    (plain : ∀ piece ∈ pieces, separator ∉ piece) (some : pieces ≠ []) :
    splitOn separator (joinWith [separator] pieces) = pieces := by
  induction pieces with
  | nil => exact absurd rfl some
  | cons piece rest ih =>
    rw [List.forall_mem_cons] at plain
    cases rest with
    | nil => rw [joinWith_singleton, splitOn_plain plain.1]
    | cons next rest =>
      rw [joinWith_cons, List.append_assoc, List.singleton_append, splitOn_append plain.1,
        ih plain.2 (List.cons_ne_nil _ _)]

namespace Path

def IsStep (step : Text) : Prop := ¬ (step = [] ∨ step = ".") ∧ separator ∉ step

instance : DecidablePred IsStep := fun _ => inferInstanceAs (Decidable (_ ∧ _))

/-- A path that can be read from a text. -/
def Proper (p : Path) : Prop := ∀ step ∈ p.parts, IsStep step

instance : DecidablePred Proper := fun p => inferInstanceAs (Decidable (∀ step ∈ p.parts, _))

theorem isStep_of_mem {t step : Text} (member : step ∈ steps t) : IsStep step := by
  obtain ⟨listed, names⟩ := List.mem_filter.mp member
  constructor
  · simpa using names
  · exact fun slash => (Text.splitOn_mem listed slash).2 rfl

theorem ofText_proper (t : Text) : (ofText t).Proper := fun _ => isStep_of_mem

variable {p : Path}

theorem Proper.child (proper : p.Proper) {name : Text} (isStep : IsStep name) :
    (p.child name).Proper := by
  intro step member
  rcases List.mem_append.mp member with before | last
  · exact proper step before
  · exact List.mem_singleton.mp last ▸ isStep

theorem Proper.parent (proper : p.Proper) : p.parent.Proper :=
  fun step member => proper step (List.dropLast_subset _ member)

theorem Proper.join (proper : p.Proper) (t : Text) : (p.join t).Proper := by
  unfold Path.join
  split
  · intro step member
    rcases List.mem_append.mp member with before | behind
    · exact proper step before
    · exact isStep_of_mem behind
  · exact ofText_proper t

theorem Proper.defaultOutput (proper : p.Proper) : p.defaultOutput.Proper := by
  unfold Path.defaultOutput
  split <;> exact proper.parent.join _

theorem noNul_parent (noNul : ¬ p.hasNul) : ¬ p.parent.hasNul := by
  intro nul
  obtain ⟨step, member, inside⟩ := List.any_eq_true.mp nul
  exact noNul (List.any_eq_true.mpr ⟨step, List.dropLast_subset _ member, inside⟩)

theorem noNul_child {name : Text} (noNul : ¬ p.hasNul) (plain : .scalar '\x00' ∉ name) :
    ¬ (p.child name).hasNul := by
  intro nul
  obtain ⟨step, member, inside⟩ := List.any_eq_true.mp nul
  rcases List.mem_append.mp member with above | last
  · exact noNul (List.any_eq_true.mpr ⟨step, above, inside⟩)
  · obtain rfl := List.mem_singleton.mp last
    exact plain (List.contains_iff_mem.mp inside)

end Path

end Unbundle
