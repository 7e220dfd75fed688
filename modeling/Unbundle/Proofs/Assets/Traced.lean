import Unbundle.Proofs.Assets.Stretch

namespace Unbundle

def Text.placed (page : Text) (i j : Nat) : List (Option Nat × Sym) :=
  (List.range' i (j - i)).flatMap fun x => page[x]?.toList.map (some x, ·)

namespace Plan

variable {p : Plan}

/-- What stands in the new page for a position of the old one: a reference, which comes from
    nowhere, and the symbol that stood there. -/
def tracedAt (p : Plan) (i : Nat) : List (Option Nat × Sym) :=
  (p.inserts i).map (none, ·) ++ if p.Deletes i then [] else p.page[i]?.toList.map (some i, ·)

/-- The symbols of the new page, each with the position of the old one that it comes from, unless it
    belongs to a reference. -/
def traced (p : Plan) : List (Option Nat × Sym) :=
  (List.range (p.page.length + 1)).flatMap p.tracedAt

theorem markup_traced (formed : p.marks.WellFormed p.page) :
    p.assets.markup = p.traced.map Prod.snd := by
  rw [assets_reads formed, traced, List.map_flatMap]
  apply List.flatMap_congr
  intro i _
  rw [written_eq, tracedAt, List.map_append, List.map_map, Function.comp_def, List.map_id']
  split
  · rfl
  · rw [List.map_map, Function.comp_def, List.map_id']

def trace (p : Plan) (i j : Nat) : List (Option Nat × Sym) :=
  (List.range' i (j - i)).flatMap p.tracedAt

theorem trace_append (p : Plan) {i j k : Nat} (first : i ≤ j) (second : j ≤ k) :
    p.trace i j ++ p.trace j k = p.trace i k := by
  rw [trace, trace, trace, ← List.flatMap_append, range'_parts first second]

theorem not_mem_put {t : Text} {x : Nat} {s : Sym} : (some x, s) ∉ t.map (none, ·) := by
  intro member
  obtain ⟨_, _, none⟩ := List.mem_map.mp member
  cases none

theorem mem_trace {i j x : Nat} {s : Sym} (member : (some x, s) ∈ p.trace i j) :
    i ≤ x ∧ x < j := by
  obtain ⟨y, range, here⟩ := List.mem_flatMap.mp member
  have bounds := List.mem_range'_1.mp range
  have same : x = y := by
    rcases List.mem_append.mp here with put | kept
    · exact absurd put not_mem_put
    · split at kept
      · cases kept
      · obtain ⟨_, _, equal⟩ := List.mem_map.mp kept
        cases equal
        rfl
  omega

/-- What stands in the new page from the symbol at a position on, less what is put in front of that
    symbol. -/
def rest (p : Plan) (i : Nat) : List (Option Nat × Sym) :=
  (if p.Deletes i then [] else p.page[i]?.toList.map (some i, ·)) ++
    p.trace (i + 1) (p.page.length + 1)

theorem traced_eq {i : Nat} (inside : i ≤ p.page.length) :
    p.traced = p.trace 0 i ++ (p.inserts i).map (none, ·) ++ p.rest i := by
  have whole : p.traced = p.trace 0 (p.page.length + 1) := by
    rw [traced, trace, List.range_eq_range', Nat.sub_zero]
  have here : p.trace i (i + 1) = p.tracedAt i := by
    rw [trace, Nat.add_sub_cancel_left]
    exact List.flatMap_singleton _ _
  rw [whole, ← p.trace_append (Nat.zero_le i) (by omega),
    ← p.trace_append (Nat.le_succ i) (by omega), here, tracedAt, rest]
  simp only [List.append_assoc]

theorem mem_rest {i x : Nat} {s : Sym} (member : (some x, s) ∈ p.rest i) : i ≤ x := by
  rcases List.mem_append.mp member with kept | later
  · split at kept
    · cases kept
    · obtain ⟨_, _, equal⟩ := List.mem_map.mp kept
      cases equal
      exact Nat.le_refl i
  · exact Nat.le_of_lt (mem_trace later).1

theorem rest_copy {i j : Nat} (ahead : i < j) (inside : j ≤ p.page.length)
    (spared : ∀ x, i ≤ x → x < j → ¬ p.Deletes x)
    (silent : ∀ x, i < x → x < j → p.inserts x = []) :
    p.rest i = p.page.placed i j ++ p.trace j (p.page.length + 1) := by
  have copied : p.trace (i + 1) j = p.page.placed (i + 1) j := by
    apply List.flatMap_congr
    intro x member
    have bounds := List.mem_range'_1.mp member
    rw [tracedAt, silent x (by omega) (by omega), if_neg (spared x (by omega) (by omega))]
    rfl
  have first : p.page.placed i j =
      p.page[i]?.toList.map (some i, ·) ++ p.page.placed (i + 1) j := by
    rw [Text.placed, Text.placed, show j - i = j - (i + 1) + 1 by omega, List.range'_succ,
      List.flatMap_cons]
  rw [rest, if_neg (spared i (Nat.le_refl i) ahead), first, ← copied, List.append_assoc,
    p.trace_append ahead (by omega)]

end Plan

end Unbundle
