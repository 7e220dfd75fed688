import Unbundle.Proofs.Path.Steps
import Unbundle.Proofs.Store.Straight

namespace Unbundle

def IsPlain (name : Text) : Prop := ∀ x ∈ name, x ≠ Path.separator ∧ x ≠ .scalar '\x00'

instance : DecidablePred IsPlain := fun name => inferInstanceAs (Decidable (∀ x ∈ name, _))

namespace Store

structure IsEntryName (name : Text) : Prop extends IsName name where
  plain : IsPlain name

instance : DecidablePred IsEntryName := fun name =>
  decidable_of_iff (IsName name ∧ IsPlain name)
    ⟨fun is => ⟨is.1, is.2⟩, fun is => ⟨is.toIsName, is.plain⟩⟩

structure Formed (s : Store) : Prop where
  distinct : (s.entries.map Prod.fst).Nodup
  named : ∀ place ∈ s.entries.map Prod.fst, ∀ name ∈ place, IsEntryName name
  hung : ∀ place name, s.node? (place ++ [name]) ≠ none → s.node? place = some .dir
  links : ∀ place text, s.node? place = some (.link text) → .scalar '\x00' ∉ text

variable {s s' : Store} {p : Path} {place : Place} {name : Text} {node : Node}
  {content : Content} {target : Target} {ending : Ending}

theorem key_of_node (below : place ≠ []) (stands : s.node? place ≠ none) :
    place ∈ s.entries.map Prod.fst := by
  rw [node?_of_ne s below] at stands
  by_contra missing
  refine stands (List.lookup_eq_none_iff.mpr fun entry member => bne_iff_ne.mpr ?_)
  rintro rfl
  exact missing (List.mem_map_of_mem member)

theorem node_of_key (key : place ∈ s.entries.map Prod.fst) : s.node? place ≠ none := by
  unfold node?
  split
  · simp
  · intro missing
    obtain ⟨entry, member, rfl⟩ := List.mem_map.mp key
    exact lookup_eq_none missing entry member rfl

theorem keys_put (s : Store) (place : Place) (node : Node) :
    (s.put place node).entries.map Prod.fst =
      if (s.entries.lookup place).isSome then s.entries.map Prod.fst
      else s.entries.map Prod.fst ++ [place] :=
  keys_set _ _ _

theorem formed_of_entries (distinct : (s.entries.map Prod.fst).Nodup)
    (named : ∀ entry ∈ s.entries, ∀ name ∈ entry.1, IsEntryName name)
    (hung : ∀ entry ∈ s.entries, s.node? entry.1.dropLast = some .dir)
    (links : ∀ entry ∈ s.entries, ∀ text, entry.2 = .link text → .scalar '\x00' ∉ text) :
    s.Formed where
  distinct
  named place member := by
    obtain ⟨entry, listed, rfl⟩ := List.mem_map.mp member
    exact named entry listed
  hung place name stands := by
    obtain ⟨entry, listed, key⟩ := List.mem_map.mp (key_of_node (by simp) stands)
    have dir := hung entry listed
    rwa [key, List.dropLast_concat] at dir
  links place text link := by
    unfold node? at link
    split at link
    · cases link
    · obtain ⟨before, after, entries, -⟩ := List.lookup_eq_some_iff.mp link
      exact links _ (entries ▸ List.mem_append_right _ List.mem_cons_self) text rfl

namespace Formed

theorem names (formed : s.Formed) (stands : s.node? place ≠ none) :
    ∀ name ∈ place, IsEntryName name := by
  by_cases root : place = []
  · simp [root]
  · exact formed.named place (key_of_node root stands)

theorem put (formed : s.Formed) (parent : s.node? place = some .dir) (isName : IsEntryName name)
    (becomes : Node.Becomes (s.node? (place ++ [name])) (some node)) :
    (s.put (place ++ [name]) node).Formed := by
  have below : place ++ [name] ≠ [] := by simp
  have grows := grows_put below becomes
  constructor
  · rw [keys_put]
    split
    · exact formed.distinct
    · rename_i missing
      refine List.nodup_append.mpr ⟨formed.distinct, List.pairwise_singleton _ _, ?_⟩
      rintro key member _ last rfl
      rw [List.mem_singleton.mp last] at member
      have stands := node_of_key member
      rw [node?_of_ne s below] at stands
      exact missing (Option.isSome_iff_ne_none.mpr stands)
  · have fits : ∀ part ∈ place ++ [name], IsEntryName part := by
      intro part member
      rcases List.mem_append.mp member with above | last
      · exact formed.names (by simp [parent]) part above
      · exact List.mem_singleton.mp last ▸ isName
    intro key member
    rw [keys_put] at member
    split at member
    · exact formed.named key member
    · rcases List.mem_append.mp member with old | last
      · exact formed.named key old
      · exact List.mem_singleton.mp last ▸ fits
  · intro above part stands
    rw [node?_put _ _ _ _ below] at stands
    split at stands
    · rename_i same
      rw [List.append_inj_left' same rfl]
      exact (parent ▸ grows.becomes place).dir
    · exact (formed.hung above part stands ▸ grows.becomes above).dir
  · intro place' text link
    exact formed.links place' text (link ▸ grows.becomes place').no_link

end Formed

theorem isPlain_targetSteps {text step : Text} (noNul : .scalar '\x00' ∉ text)
    (member : step ∈ targetSteps text) : IsPlain step := by
  have listed : step ∈ (text.splitOn Path.separator).filter (!·.isEmpty) ∨ step = [] := by
    unfold targetSteps at member
    dsimp only at member
    split at member
    · simpa using member
    · exact .inl member
  rcases listed with listed | rfl
  · intro x here
    obtain ⟨inside, notSlash⟩ := Text.splitOn_mem (List.mem_of_mem_filter listed) here
    exact ⟨notSlash, fun nul => noNul (nul ▸ inside)⟩
  · simp [IsPlain]

theorem Route.vacant_plain {links : Nat} {steps : List Text} {parent : Place}
    (route : Route s ending links place steps (.vacant parent name)) (formed : s.Formed)
    (plain : ∀ step ∈ steps, IsPlain step) : IsEntryName name := by
  generalize goal : Target.vacant parent name = target at route
  induction route with
  | here | keep => cases goal
  | free dir enters vacant =>
    cases goal
    exact ⟨⟨enters.named, enters.notUp⟩, plain _ List.mem_cons_self⟩
  | stay dir dot rest ih => exact ih (List.forall_mem_cons.mp plain).2 goal
  | up dir rest ih => exact ih (List.forall_mem_cons.mp plain).2 goal
  | down dir enters stands solid rest ih => exact ih (List.forall_mem_cons.mp plain).2 goal
  | follow dir enters link followed rest ih =>
    refine ih (fun step member => ?_) goal
    rcases List.mem_append.mp member with inside | behind
    · exact isPlain_targetSteps (formed.links _ _ link) inside
    · exact plain step (List.mem_cons_of_mem _ behind)

namespace Formed

theorem fits (formed : s.Formed) (proper : p.Proper) (looked : s.lookup ending p = .ok target)
    (below : target.place ≠ []) :
    ∃ parent name, target.place = parent ++ [name] ∧ s.node? parent = some .dir ∧
      IsEntryName name := by
  obtain ⟨askable, route⟩ := lookup_eq_ok_iff.mp looked
  cases target with
  | vacant parent name =>
    refine ⟨parent, name, rfl, route.vacant.1, route.vacant_plain formed ?_⟩
    intro step member x here
    refine ⟨fun slash => (proper step member).2 (slash ▸ here), fun nul => askable.noNul ?_⟩
    exact List.any_eq_true.mpr ⟨step, member, List.contains_iff_mem.mpr (nul ▸ here)⟩
  | found place node =>
    have stands : s.node? place ≠ none := by simp [route.found]
    obtain empty | ⟨parent, name, split⟩ := List.eq_nil_or_concat place
    · exact absurd empty below
    · rw [List.concat_eq_append] at split
      subst split
      exact ⟨parent, name, rfl, formed.hung parent name stands, formed.names stands name (by simp)⟩

theorem change (formed : s.Formed) (proper : p.Proper) (looked : s.lookup ending p = .ok target)
    (below : target.place ≠ []) (becomes : Node.Becomes (s.node? target.place) (some node)) :
    (s.put target.place node).Formed := by
  obtain ⟨parent, name, place, dir, isName⟩ := formed.fits proper looked below
  rw [place] at becomes ⊢
  exact formed.put dir isName becomes

theorem write (formed : s.Formed) (proper : p.Proper) (wrote : s.write p content = .ok s') :
    s'.Formed := by
  obtain ⟨target, looked, ⟨rfl, becomes⟩ | ⟨rfl, -⟩⟩ := write_cases wrote
  · exact formed.change proper looked (Target.below becomes Node.noConfusion) becomes
  · exact formed

theorem makeDir (formed : s.Formed) (proper : p.Proper) (made : s.makeDir p = .ok s') :
    s'.Formed := by
  obtain ⟨parent, name, looked, vacant, rfl⟩ := makeDir_cases made
  have below : parent ++ [name] ≠ [] := by simp
  exact formed.change proper looked below (vacant ▸ .made)

theorem makeLast (formed : s.Formed) (proper : p.Proper) (made : s.makeLast p = .ok s') :
    s'.Formed := by
  unfold Store.makeLast at made
  split at made
  · split at made
    · cases made
    · exact (accept_cases made).1 ▸ formed
  · exact formed.makeDir proper made

theorem makeDirs (formed : s.Formed) (proper : p.Proper) : (s.makeDirs p).1.Formed := by
  fun_induction Store.makeDirs s p with
  | case1 p s' made => exact formed.makeDir proper made
  | case7 p r refused missing s' accepted => exact (accept_cases accepted).1 ▸ formed
  | case4 p r refused missing nonempty s' fault above ih
  | case6 p r refused missing nonempty s' above fault made ih =>
    rw [above] at ih
    exact ih proper.parent
  | case5 p r refused missing nonempty s' above s'' made ih =>
    rw [above] at ih
    exact (ih proper.parent).makeLast proper made
  | case2 | case3 | case8 => exact formed

end Formed

theorem Writes.formed {ws : List (Path × Content)} (writes : Writes s ws s') (formed : s.Formed)
    (proper : ∀ q ∈ ws.map Prod.fst, q.Proper) : s'.Formed := by
  induction writes with
  | nil => exact formed
  | cons wrote later ih =>
    rw [List.map_cons, List.forall_mem_cons] at proper
    exact ih (formed.write proper.1 wrote) proper.2

end Store

end Unbundle
