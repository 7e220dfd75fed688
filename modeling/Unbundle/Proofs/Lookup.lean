import Mathlib.Data.List.Basic

namespace Unbundle

variable {α β : Type} [BEq α] [LawfulBEq α] [DecidableEq α]

def setEntry (entries : List (α × β)) (key : α) (new : β) : List (α × β) :=
  if (entries.lookup key).isSome then
    entries.map fun entry => if entry.1 = key then (key, new) else entry
  else entries ++ [(key, new)]

theorem lookup_replaced (entries : List (α × β)) (key other : α) (new : β) :
    (entries.map fun entry => if entry.1 = key then (key, new) else entry).lookup other =
      if other = key then (entries.lookup key).map fun _ => new else entries.lookup other := by
  induction entries with
  | nil => simp
  | cons entry entries ih =>
    obtain ⟨first, old⟩ := entry
    rw [List.map_cons]
    by_cases here : first = key
    · subst here
      rw [if_pos rfl, List.lookup_cons, ih]
      by_cases same : other = first
      · simp [same]
      · simp [same, List.lookup_cons, beq_false_of_ne same]
    · rw [if_neg here, List.lookup_cons, ih]
      by_cases same : other = key
      · simp [same, List.lookup_cons, beq_false_of_ne (Ne.symm here)]
      · simp [same, List.lookup_cons]

theorem lookup_set (entries : List (α × β)) (key other : α) (new : β) :
    (setEntry entries key new).lookup other =
      if other = key then some new else entries.lookup other := by
  unfold setEntry
  cases stands : entries.lookup key with
  | some old =>
    rw [Option.isSome_some, if_pos rfl, lookup_replaced, stands, Option.map_some]
  | none =>
    rw [Option.isSome_none, if_neg Bool.false_ne_true, List.lookup_append]
    by_cases same : other = key
    · simp [same, stands]
    · rw [if_neg same, List.lookup_cons, beq_false_of_ne same, List.lookup_nil, Option.or_none]

omit [LawfulBEq α] in
theorem keys_set (entries : List (α × β)) (key : α) (new : β) :
    (setEntry entries key new).map Prod.fst =
      if (entries.lookup key).isSome then entries.map Prod.fst
      else entries.map Prod.fst ++ [key] := by
  unfold setEntry
  split
  · rw [List.map_map]
    refine List.map_congr_left fun entry _ => ?_
    by_cases here : entry.1 = key <;> simp [here]
  · simp

omit [LawfulBEq α] in
theorem keys_prefix_set (entries : List (α × β)) (key : α) (new : β) :
    entries.map Prod.fst <+: (setEntry entries key new).map Prod.fst := by
  rw [keys_set]
  split
  · exact List.prefix_refl _
  · exact List.prefix_append _ _

omit [DecidableEq α] in
theorem lookup_eq_none {entries : List (α × β)} {key : α} (missing : entries.lookup key = none) :
    ∀ entry ∈ entries, entry.1 ≠ key := by
  intro entry member same
  have differ := List.lookup_eq_none_iff.mp missing entry member
  simp [same] at differ

theorem set_set (entries : List (α × β)) (key : α) (old new : β) :
    setEntry (setEntry entries key old) key new = setEntry entries key new := by
  have stands : ((setEntry entries key old).lookup key).isSome := by simp [lookup_set]
  rw [setEntry, if_pos stands, setEntry, setEntry]
  cases found : entries.lookup key with
  | some _ =>
    simp only [Option.isSome_some, if_true, List.map_map]
    refine List.map_congr_left fun entry _ => ?_
    by_cases here : entry.1 = key <;> simp [here]
  | none =>
    have others : ∀ entry ∈ entries, (if entry.1 = key then (key, new) else entry) = entry :=
      fun entry member => if_neg (lookup_eq_none found entry member)
    simp [List.map_congr_left others]

omit [LawfulBEq α] in
theorem set_eq_self_iff {entries : List (α × β)} {key : α} {node : β} :
    setEntry entries key node = entries ↔
      (entries.lookup key).isSome ∧ ∀ entry ∈ entries, entry.1 = key → entry = (key, node) := by
  unfold setEntry
  split
  · rename_i stands
    have same := List.map_inj_left (l := entries) (g := id)
      (f := fun entry => if entry.1 = key then (key, node) else entry)
    rw [List.map_id] at same
    rw [same]
    simp only [stands, true_and]
    refine forall₂_congr fun entry _ => ?_
    by_cases here : entry.1 = key <;> simp [here, eq_comm]
  · rename_i missing
    simp [missing]

theorem set_stays {entries : List (α × β)} {key other : α} {node : β} (new : β)
    (kept : setEntry entries key node = entries) (differ : other ≠ key) :
    setEntry (setEntry entries other new) key node = setEntry entries other new := by
  rw [set_eq_self_iff] at kept ⊢
  refine ⟨by rw [lookup_set, if_neg differ.symm]; exact kept.1, fun entry member here => ?_⟩
  unfold setEntry at member
  split at member
  · obtain ⟨before, listed, rfl⟩ := List.mem_map.mp member
    by_cases replaced : before.1 = other
    · simp [replaced, differ] at here
    · rw [if_neg replaced] at here ⊢
      exact kept.2 before listed here
  · rcases List.mem_append.mp member with listed | last
    · exact kept.2 entry listed here
    · rw [List.mem_singleton.mp last] at here
      exact absurd here differ

end Unbundle
