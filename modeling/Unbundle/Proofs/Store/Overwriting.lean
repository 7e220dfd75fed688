import Unbundle.Proofs.Store.Straight

namespace Unbundle.Store

variable {s s₁ s' : Store} {p q : Path} {place other : Place} {node : Node}
  {content : Content} {target : Target}

theorem put_put (s : Store) (place : Place) (old new : Node) :
    (s.put place old).put place new = s.put place new :=
  congrArg (Store.mk · s.cwd) (set_set s.entries place old new)

theorem put_stays (new : Node) (kept : s.put place node = s) (differ : other ≠ place) :
    (s.put other new).put place node = s.put other new :=
  congrArg (Store.mk · s.cwd) (set_stays new (congrArg Store.entries kept) differ)

section Write

theorem write_to (looked : s.lookup .create p = .ok target)
    (becomes : Node.Becomes (s.node? target.place) (some (.file content none))) (new : Content) :
    s.write p new = .ok (s.put target.place (.file new none)) := by
  rw [write, looked]
  cases target with
  | vacant parent name => rfl
  | found place node =>
    have stands := (lookup_eq_ok_iff.mp looked).2.found
    rw [Target.place, stands] at becomes
    obtain missing | ⟨old, time, file⟩ := becomes.file
    · cases missing
    · cases file
      rfl

theorem write_file {old : Content} {time : Option Int}
    (looked : s.lookup .create p = .ok (.found place (.file old time))) (new : Content) :
    s.write p new = .ok (s.put place (.file new none)) := by
  rw [write, looked]
  rfl

theorem write_device (looked : s.lookup .create p = .ok (.found place .device)) (new : Content) :
    s.write p new = .ok s := by
  rw [write, looked]
  rfl

theorem write_any (wrote : s.write p content = .ok s₁) (new : Content) :
    ∃ s₂, s.write p new = .ok s₂ := by
  obtain ⟨target, looked, ⟨-, becomes⟩ | ⟨-, device⟩⟩ := write_cases wrote
  · exact ⟨_, write_to looked becomes new⟩
  · have found := (Grows.refl s).lookup_found looked (.inl rfl) device Node.device_solid
    exact ⟨s, write_device found new⟩

theorem write_over (wrote : s.write p content = .ok s₁) (new : Content) :
    s₁.write p new = s.write p new := by
  obtain ⟨target, looked, ⟨rfl, becomes⟩ | ⟨rfl, -⟩⟩ := write_cases wrote
  · have below := Target.below becomes Node.noConfusion
    have stands := (node?_put s target.place target.place (.file content none) below).trans
      (if_pos rfl)
    have found := (grows_put below becomes).lookup_found looked (.inl rfl) stands
      (Node.file_solid _ _)
    rw [write_file found, put_put, write_to looked becomes]
  · rfl

theorem write_again (wrote : s.write p content = .ok s₁) : s₁.write p content = .ok s₁ :=
  (write_over wrote content).trans wrote

theorem Apart.straight_ne (apart : Apart p q) : s.straight p ≠ s.straight q := by
  obtain ⟨above, below, a, b, rfl, rfl, first, second, differ⟩ := apart
  rw [straight_child first, straight_child second]
  exact fun same => differ (List.cons.inj (List.append_inj_right' same rfl)).1

theorem lookup_straight {ending : Ending} (linkless : s.Linkless)
    (looked : s.lookup ending p = .ok target) : target.place = s.straight p :=
  (lookup_eq_ok_iff.mp looked).2.straight linkless

theorem write_stays {new : Content} (linkless : s.Linkless) (apart : Apart p q)
    (kept : s.write p content = .ok s) (wrote : s.write q new = .ok s₁) :
    s₁.write p content = .ok s₁ := by
  obtain ⟨beside, looked', ⟨rfl, becomes'⟩ | ⟨rfl, -⟩⟩ := write_cases wrote
  swap
  · exact kept
  obtain ⟨target, looked, kept⟩ := write_cases kept
  have differ : beside.place ≠ target.place := by
    rw [lookup_straight linkless looked, lookup_straight linkless looked']
    exact apart.straight_ne.symm
  have below' := Target.below becomes' Node.noConfusion
  have grows := grows_put below' becomes'
  have same : (s.put beside.place (.file new none)).node? target.place = s.node? target.place := by
    rw [node?_put _ _ _ _ below', if_neg differ.symm]
  rcases kept with ⟨kept, becomes⟩ | ⟨-, device⟩
  · have stands : s.node? target.place = some (.file content none) := by
      rw [kept, node?_put _ _ _ _ (Target.below becomes Node.noConfusion), if_pos rfl]
    have found := grows.lookup_found looked (.inl rfl) (same.trans stands) (Node.file_solid _ _)
    rw [write_file found, put_stays _ kept.symm differ]
  · have found := grows.lookup_found looked (.inl rfl) (same.trans device) Node.device_solid
    exact write_device found content

end Write

theorem write_changes (linkless : s.Linkless) (wrote : s.write p content = .ok s') (place : Place) :
    s'.node? place = s.node? place ∨
      s.straight p = place ∧ s'.node? place = some (.file content none) := by
  obtain ⟨target, looked, ⟨rfl, becomes⟩ | ⟨rfl, -⟩⟩ := write_cases wrote
  · have below := Target.below becomes Node.noConfusion
    rw [node?_put _ _ _ _ below, ← lookup_straight linkless looked]
    by_cases here : place = target.place
    · exact .inr ⟨here.symm, if_pos here⟩
    · exact .inl (if_neg here)
  · exact .inl rfl

namespace Writes

variable {ws : List (Path × Content)}

theorem changes (writes : Writes s ws s') (linkless : s.Linkless) (place : Place) :
    s'.node? place = s.node? place ∨
      ∃ w ∈ ws, s.straight w.1 = place ∧ s'.node? place = some (.file w.2 none) := by
  induction writes with
  | nil => exact .inl rfl
  | @cons s s₁ s' p content rest wrote later ih =>
    have grows := (write_touches wrote).grows
    rcases ih (grows.linkless linkless) with same | ⟨w, member, here, written⟩
    · rcases write_changes linkless wrote place with before | ⟨here, written⟩
      · exact .inl (same.trans before)
      · exact .inr ⟨_, List.mem_cons_self, here, same.trans written⟩
    · exact .inr ⟨w, List.mem_cons_of_mem _ member, grows.straight w.1 ▸ here, written⟩

theorem of_kept (linkless : s.Linkless) (apart : (ws.map Prod.fst).Pairwise Apart)
    (kept : ∀ w ∈ ws, ∃ old, s.write w.1 old = .ok s) : ∃ s', Writes s ws s' := by
  induction ws generalizing s with
  | nil => exact ⟨s, .nil s⟩
  | cons w ws ih =>
    rw [List.map_cons, List.pairwise_cons] at apart
    rw [List.forall_mem_cons] at kept
    obtain ⟨old, held⟩ := kept.1
    obtain ⟨s₁, wrote⟩ := write_any held w.2
    have linkless₁ := (write_touches wrote).grows.linkless linkless
    obtain ⟨s', later⟩ := ih linkless₁ apart.2 fun other member => by
      obtain ⟨old, held⟩ := kept.2 other member
      have differ := symm (apart.1 other.1 (List.mem_map_of_mem member))
      exact ⟨old, write_stays linkless differ held wrote⟩
    exact ⟨s', .cons wrote later⟩

theorem stays (writes : Writes s ws s') (linkless : s.Linkless)
    (kept : s.write p content = .ok s) (apart : ∀ q ∈ ws.map Prod.fst, Apart p q) :
    s'.write p content = .ok s' := by
  induction writes with
  | nil => exact kept
  | cons wrote later ih =>
    rw [List.map_cons, List.forall_mem_cons] at apart
    have linkless' := (write_touches wrote).grows.linkless linkless
    exact ih linkless' (write_stays linkless apart.1 kept wrote) apart.2

theorem kept (writes : Writes s ws s') (linkless : s.Linkless)
    (apart : (ws.map Prod.fst).Pairwise Apart) : ∀ w ∈ ws, s'.write w.1 w.2 = .ok s' := by
  induction writes with
  | nil => simp
  | cons wrote later ih =>
    rw [List.map_cons, List.pairwise_cons] at apart
    have linkless' := (write_touches wrote).grows.linkless linkless
    rw [List.forall_mem_cons]
    exact ⟨later.stays linkless' (write_again wrote) apart.1, ih linkless' apart.2⟩

theorem overwritten {contents : List Content} (writes : Writes s (contents.map (p, ·)) s')
    (new : Content) : s'.write p new = s.write p new := by
  generalize written : contents.map (p, ·) = ws at writes
  induction writes generalizing contents with
  | nil => rfl
  | cons wrote later ih =>
    cases contents with
    | nil => cases written
    | cons content contents =>
      cases written
      exact (ih rfl).trans (write_over wrote new)

theorem idle (kept : ∀ w ∈ ws, s.write w.1 w.2 = .ok s) : Writes s ws s := by
  induction ws with
  | nil => exact .nil s
  | cons w ws ih =>
    rw [List.forall_mem_cons] at kept
    exact .cons kept.1 (ih kept.2)

end Writes

theorem Route.keep_link {links : Nat} {steps : List Text} (linkless : s.Linkless)
    (route : Route s .followLink links place steps target) :
    Route s .keepLink links place steps target := by
  induction route with
  | here stands => exact .here stands
  | stay dir dot rest ih => exact .stay dir dot ih
  | up dir rest ih => exact .up dir ih
  | free dir enters vacant =>
    exact .free dir ⟨enters.named, enters.notUp, by simp, enters.short⟩ vacant
  | keep dir enters link => exact absurd link (linkless _ _)
  | follow dir enters link => exact absurd link (linkless _ _)
  | down dir enters stands solid rest ih =>
    exact .down dir ⟨enters.named, enters.notUp, by simp, enters.short⟩ stands solid ih

theorem makeDirs_found (looked : s.lookup .keepLink p = .ok (.found place node))
    (leads : s.entry p = .ok (place, .dir)) : s.makeDirs p = (s, none) := by
  have refused : s.makeDir p = .error (refusal .alreadyExists p) := by
    rw [makeDir, looked]
    rfl
  have stands : s.isDir p = .ok true := by rw [isDir, holds, leads]
  have accepted (r : Refusal) : s.accept p r = .ok s := by rw [accept, stands]
  rw [makeDirs, refused]
  simp [refusal, accepted]

theorem makeDirs_again (linkless : s.Linkless) (leads : s.entry p = .ok (place, .dir)) :
    s.makeDirs p = (s, none) := by
  obtain ⟨askable, route⟩ := entry_route leads
  exact makeDirs_found (lookup_eq_ok_iff.mpr ⟨askable, route.keep_link linkless⟩) leads

end Unbundle.Store
