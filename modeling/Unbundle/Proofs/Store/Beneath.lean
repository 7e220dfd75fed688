import Mathlib.Data.List.Induction
import Mathlib.Data.List.Nodup
import Unbundle.Proofs.Store.Formed
import Unbundle.Store.Stages

namespace Unbundle

def Path.beneath (dir : Path) (names : Place) : Path := { dir with parts := dir.parts ++ names }

def Place.since (place below : Place) : Option Place :=
  if place.isPrefixOf below && below != place then some (below.drop place.length) else none

theorem Place.since_eq_some_iff {place below names : Place} :
    place.since below = some names ↔ names ≠ [] ∧ below = place ++ names := by
  unfold since
  constructor
  · intro led
    split at led
    · rename_i under
      obtain ⟨isPrefix, differ⟩ := Bool.and_eq_true_iff.mp under
      obtain ⟨rest, rfl⟩ := List.isPrefixOf_iff_prefix.mp isPrefix
      rw [List.drop_left, Option.some.injEq] at led
      subst led
      refine ⟨?_, rfl⟩
      rintro rfl
      simp at differ
    · cases led
  · rintro ⟨some, rfl⟩
    simp [some]

namespace Store

variable {s t : Store} {dir : Path} {place place' : Place} {names : Place} {node : Node}
  {links : Nat} {steps : List Text}

section Below

theorem keys_below (s : Store) (place : Place) :
    (s.below place).map Prod.fst = (s.entries.map Prod.fst).filterMap place.since := by
  rw [below, List.map_filterMap, List.filterMap_map]
  refine List.filterMap_congr fun entry _ => ?_
  simp only [Function.comp, Place.since]
  split <;> rfl

theorem mem_below : names ∈ (s.below place).map Prod.fst ↔
    names ≠ [] ∧ place ++ names ∈ s.entries.map Prod.fst := by
  rw [keys_below, List.mem_filterMap]
  constructor
  · rintro ⟨key, member, led⟩
    obtain ⟨some, rfl⟩ := Place.since_eq_some_iff.mp led
    exact ⟨some, member⟩
  · rintro ⟨some, member⟩
    exact ⟨_, member, Place.since_eq_some_iff.mpr ⟨some, rfl⟩⟩

theorem mem_below_iff : names ∈ (s.below place).map Prod.fst ↔
    names ≠ [] ∧ s.node? (place ++ names) ≠ none := by
  rw [mem_below]
  refine and_congr_right fun some => ⟨node_of_key, key_of_node ?_⟩
  simp [some]

theorem Formed.below_nodup (formed : s.Formed) (place : Place) :
    ((s.below place).map Prod.fst).Nodup := by
  rw [keys_below]
  refine List.Nodup.filterMap (fun first second names here there => ?_) formed.distinct
  rw [(Place.since_eq_some_iff.mp here).2, (Place.since_eq_some_iff.mp there).2]

end Below

section Leading

theorem Route.onward (route : Route s .followLink links place steps (.found place' .dir)) :
    ∃ left, ∀ more,
      s.walk .followLink links place (steps ++ more) = s.walk .followLink left place' more := by
  have loosely {step : Text} {steps : List Text} (more : List Text)
      (enters : Enters .followLink step steps) : Enters .followLink step (steps ++ more) :=
    ⟨enters.named, enters.notUp, by simp, enters.short⟩
  generalize goal : Target.found place' .dir = target at route
  induction route with
  | @here links place node stands =>
    cases goal
    exact ⟨links, fun _ => rfl⟩
  | free => cases goal
  | keep _ _ _ kept => cases kept
  | stay dir dot rest ih =>
    obtain ⟨left, onward⟩ := ih goal
    exact ⟨left, fun more => (walk_stay dir dot).trans (onward more)⟩
  | up dir rest ih =>
    obtain ⟨left, onward⟩ := ih goal
    exact ⟨left, fun more => (walk_up dir).trans (onward more)⟩
  | down dir enters stands solid rest ih =>
    obtain ⟨left, onward⟩ := ih goal
    exact ⟨left, fun more =>
      (walk_down dir (loosely more enters) stands solid).trans (onward more)⟩
  | follow dir enters link followed rest ih =>
    obtain ⟨left, onward⟩ := ih goal
    refine ⟨left, fun more => ?_⟩
    rw [← onward more, List.append_assoc]
    exact walk_follow dir (loosely more enters) link (by simp)

theorem Formed.dir_above (formed : s.Formed) (stands : s.node? (place ++ names) ≠ none)
    (below : names ≠ []) : s.node? place = some .dir := by
  induction names using List.reverseRecOn with
  | nil => exact absurd rfl below
  | append_singleton above last ih =>
    rw [← List.append_assoc] at stands
    have dir := formed.hung _ _ stands
    by_cases here : above = []
    · rwa [here, List.append_nil] at dir
    · exact ih (by simp [dir]) here

theorem walk_long {name : Text} (dir : s.node? place = some .dir) (isName : IsName name)
    (long : nameLimit < (Utf8.encode name).length) :
    s.walk .followLink links place (name :: steps) = .error .nameTooLong := by
  have spelt : ¬ (Ending.followLink = .create ∧ steps = [[]]) := by simp
  rw [walk, dir]
  simp only [isName.named, isName.notUp, spelt, long, if_true, if_false]

theorem Formed.walk_names (formed : s.Formed) (stands : s.node? (place ++ names) = some node)
    (solid : node.IsSolid) : s.walk .followLink links place names =
      if ∃ name ∈ names, nameLimit < (Utf8.encode name).length then .error .nameTooLong
      else .ok (.found (place ++ names) node) := by
  induction names generalizing place with
  | nil =>
    rw [List.append_nil] at stands
    simp [walk, stands]
  | cons name rest ih =>
    have taken := ne_of_eq_of_ne stands (Option.some_ne_none node)
    have dir := formed.dir_above taken (List.cons_ne_nil name rest)
    have isName := formed.names taken name (by simp)
    rw [List.append_cons] at stands taken ⊢
    by_cases long : nameLimit < (Utf8.encode name).length
    · rw [walk_long dir isName.toIsName long, if_pos ⟨name, List.mem_cons_self, long⟩]
    obtain ⟨node', there, solid'⟩ :
        ∃ node', s.node? (place ++ [name]) = some node' ∧ node'.IsSolid := by
      by_cases last : rest = []
      · rw [last, List.append_nil] at stands
        exact ⟨node, stands, solid⟩
      · exact ⟨.dir, formed.dir_above taken last, Node.dir_solid⟩
    rw [walk_down dir ⟨isName.named, isName.notUp, by simp, long⟩ there solid', ih stands]
    simp [long]

/-- The path or one of the names is longer than paths and names can be. -/
def Overlong (dir : Path) (names : Place) : Prop :=
  pathLimit ≤ (Utf8.encode (dir.beneath names).toText).length ∨
    ∃ name ∈ names, nameLimit < (Utf8.encode name).length

instance : Decidable (Overlong dir names) := inferInstanceAs (Decidable (_ ∨ _))

theorem Formed.entry_beneath (formed : s.Formed) (leads : s.entry dir = .ok (place, .dir))
    (stands : s.node? (place ++ names) = some node) (solid : node.IsSolid) :
    s.entry (dir.beneath names) =
      if Overlong dir names then .error (refusal .nameTooLong (dir.beneath names))
      else .ok (place ++ names, node) := by
  obtain ⟨askable, route⟩ := entry_route leads
  obtain ⟨left, onward⟩ := route.onward
  have noNul : ¬ (dir.beneath names).hasNul := by
    intro nul
    obtain ⟨step, member, nul⟩ := List.any_eq_true.mp nul
    rcases List.mem_append.mp member with above | below
    · exact askable.noNul (List.any_eq_true.mpr ⟨step, above, nul⟩)
    · have taken := ne_of_eq_of_ne stands (Option.some_ne_none node)
      have isName := formed.names taken step (List.mem_append_right _ below)
      exact (isName.plain _ (List.contains_iff_mem.mp nul)).2 rfl
  unfold entry lookup
  rw [if_neg noNul]
  by_cases path : pathLimit ≤ (Utf8.encode (dir.beneath names).toText).length
  · rw [if_pos path, if_pos (show Overlong dir names from .inl path)]
    rfl
  have walked : s.walk .followLink linkLimit (s.origin (dir.beneath names))
      (dir.beneath names).parts = s.walk .followLink left place names := onward names
  rw [if_neg path, walked, formed.walk_names stands solid]
  by_cases long : ∃ name ∈ names, nameLimit < (Utf8.encode name).length
  · rw [if_pos long, if_pos (show Overlong dir names from .inr long)]
    rfl
  · rw [if_neg long, if_neg (show ¬ Overlong dir names from not_or.mpr ⟨path, long⟩)]
    rfl

end Leading

end Store

end Unbundle
