import Unbundle.Proofs.Store.Growth
import Unbundle.Store.Change

namespace Unbundle

/-- The path itself or one above it, as it is spelt. -/
def Path.LeadsTo (p : Path) (q : Path) : Prop := p.root = q.root ∧ p.parts <+: q.parts

namespace Store

/-- A store differs from an earlier one only by new directories that paths of `dirs` lead to, and by
    files that paths of `files` lead to. -/
structure Touches (s s' : Store) (dirs files : Path → Prop) : Prop where
  grows : s.Grows s'
  changed : ∀ place, s'.node? place = s.node? place ∨
    (s.node? place = none ∧ ∃ p, dirs p ∧ s'.entry p = .ok (place, .dir)) ∨
    ∃ p content, files p ∧ s'.entry p = .ok (place, .file content none)

/-- What was written stands where the path leads to, unless that is a device: it keeps nothing. -/
def Took (s : Store) (p : Path) (content : Content) : Prop :=
  ∃ place, s.entry p = .ok (place, .file content none) ∨ s.entry p = .ok (place, .device)

/-- What was written to a path stands there as a file. Only a device that stood there from the first
    still does, and it keeps nothing. -/
def Keeps (s s' : Store) (p : Path) (content : Content) : Prop :=
  ∃ place, (s.node? place ≠ some .device ∧ s'.entry p = .ok (place, .file content none)) ∨
    (s.node? place = some .device ∧ s'.entry p = .ok (place, .device))

/-- Two paths lead to one and the same entry. -/
def Meet (s : Store) (p q : Path) : Prop :=
  ∃ place node, s.entry p = .ok (place, node) ∧ s.entry q = .ok (place, node)

variable {s s' s'' : Store} {p : Path} {dirs files : Path → Prop} {content : Content}
  {place : Place} {node : Node}

theorem Grows.entry_same (grows : s.Grows s') (leads : s.entry p = .ok (place, node))
    (solid : node.IsSolid) (same : s'.node? place = some node) : s'.entry p = .ok (place, node) :=
  grows.lookup (entry_eq_ok_iff.mp leads) same solid

theorem Grows.entry_dir (grows : s.Grows s') (leads : s.entry p = .ok (place, .dir)) :
    s'.entry p = .ok (place, .dir) :=
  grows.entry_same leads Node.dir_solid (entry_node leads ▸ grows.becomes place).dir

theorem Grows.entry_device (grows : s.Grows s') (leads : s.entry p = .ok (place, .device)) :
    s'.entry p = .ok (place, .device) :=
  grows.entry_same leads Node.device_solid (entry_node leads ▸ grows.becomes place).device

theorem Grows.took (grows : s.Grows s') (took : s.Took p content) : ∃ new, s'.Took p new := by
  obtain ⟨place, file | device⟩ := took
  · obtain ⟨new, stands⟩ := (entry_node file ▸ grows.becomes place).fresh
    have leads := grows.lookup (entry_eq_ok_iff.mp file) stands (Node.file_solid _ _)
    exact ⟨new, place, .inl leads⟩
  · exact ⟨content, place, .inr (grows.entry_device device)⟩

theorem Grows.keeps (grows : s.Grows s') (took : s'.Took p content) : s.Keeps s' p content := by
  obtain ⟨place, file | device⟩ := took
  · refine ⟨place, .inl ⟨fun device => ?_, file⟩⟩
    have stays := (device ▸ grows.becomes place).device
    rw [entry_node file] at stays
    cases stays
  · exact ⟨place, .inr ⟨(entry_node device ▸ grows.becomes place).was_device, device⟩⟩

theorem Keeps.took (keeps : s.Keeps s' p content) : s'.Took p content := by
  obtain ⟨place, ⟨-, file⟩ | ⟨-, device⟩⟩ := keeps
  · exact ⟨place, .inl file⟩
  · exact ⟨place, .inr device⟩

theorem Keeps.file (keeps : s.Keeps s' p content) (plain : ∀ place, s.node? place ≠ some .device) :
    ∃ place, s'.entry p = .ok (place, .file content none) := by
  obtain ⟨place, ⟨-, file⟩ | ⟨device, -⟩⟩ := keeps
  · exact ⟨place, file⟩
  · exact absurd device (plain place)

namespace Touches

theorem refl (s : Store) (dirs files : Path → Prop) : s.Touches s dirs files :=
  ⟨.refl s, fun _ => .inl rfl⟩

theorem mono {dirs' files' : Path → Prop} (touches : s.Touches s' dirs files)
    (moreDirs : ∀ p, dirs p → dirs' p) (moreFiles : ∀ p, files p → files' p) :
    s.Touches s' dirs' files' where
  grows := touches.grows
  changed place := by
    rcases touches.changed place with same | ⟨vacant, q, member, leads⟩ | ⟨q, new, member, leads⟩
    · exact .inl same
    · exact .inr (.inl ⟨vacant, q, moreDirs q member, leads⟩)
    · exact .inr (.inr ⟨q, new, moreFiles q member, leads⟩)

theorem trans (first : s.Touches s' dirs files) (second : s'.Touches s'' dirs files) :
    s.Touches s'' dirs files where
  grows := first.grows.trans second.grows
  changed place := by
    rcases second.changed place with same | ⟨vacant, q, member, leads⟩ | later
    · rcases first.changed place with before | ⟨vacant, q, member, leads⟩ | ⟨q, new, member, leads⟩
      · exact .inl (same.trans before)
      · exact .inr (.inl ⟨vacant, q, member, second.grows.entry_dir leads⟩)
      · have stands := same.trans (entry_node leads)
        exact .inr (.inr ⟨q, new, member,
          second.grows.entry_same leads (Node.file_solid _ _) stands⟩)
    · refine .inr (.inl ⟨?_, q, member, leads⟩)
      by_contra taken
      exact (first.grows.becomes place).ne_none taken vacant
    · exact .inr (.inr later)

theorem kept (touches : s.Touches s' dirs files) (leads : s.entry p = .ok (place, node))
    (solid : node.IsSolid) (alone : ∀ q, files q → ¬ s'.Meet p q) :
    s'.entry p = .ok (place, node) := by
  rcases touches.changed place with same | ⟨vacant, -⟩ | ⟨q, new, member, reached⟩
  · exact touches.grows.entry_same leads solid (same.trans (entry_node leads))
  · rw [entry_node leads] at vacant
    cases vacant
  · obtain ⟨node', leads', stands, -⟩ := touches.grows.entry leads solid
    rw [entry_node reached] at stands
    obtain rfl := Option.some.inj stands
    exact absurd ⟨place, _, leads', reached⟩ (alone q member)

theorem took (touches : s.Touches s' dirs files) (took : s.Took p content)
    (alone : ∀ q, files q → ¬ s'.Meet p q) : s'.Took p content := by
  obtain ⟨place, file | device⟩ := took
  · exact ⟨place, .inl (touches.kept file (Node.file_solid _ _) alone)⟩
  · exact ⟨place, .inr (touches.kept device Node.device_solid alone)⟩

theorem put (below : place ≠ []) (becomes : Node.Becomes (s.node? place) (some node))
    (here : (s.node? place = none ∧ ∃ p, dirs p ∧ (s.put place node).entry p = .ok (place, .dir)) ∨
      ∃ p content, files p ∧ (s.put place node).entry p = .ok (place, .file content none)) :
    s.Touches (s.put place node) dirs files where
  grows := grows_put below becomes
  changed other := by
    by_cases same : other = place
    · exact .inr (same ▸ here)
    · exact .inl (by rw [node?_put s _ _ _ below, if_neg same])

end Touches

section Write

theorem write_cases (wrote : s.write p content = .ok s') :
    ∃ target, s.lookup .create p = .ok target ∧
      ((s' = s.put target.place (.file content none) ∧
          Node.Becomes (s.node? target.place) (some (.file content none))) ∨
        s' = s ∧ s.node? target.place = some .device) := by
  unfold write at wrote
  cases looked : s.lookup .create p with
  | error fault => simp [looked, bind, Except.bind] at wrote
  | ok target =>
    have route := (lookup_eq_ok_iff.mp looked).2
    rw [looked] at wrote
    refine ⟨target, rfl, ?_⟩
    cases target with
    | vacant parent name =>
      cases wrote
      exact .inl ⟨rfl, route.vacant.2 ▸ .created content⟩
    | found place node =>
      cases node with
      | file old time =>
        cases wrote
        exact .inl ⟨rfl, route.found ▸ .changed old time content⟩
      | device =>
        cases wrote
        exact .inr ⟨rfl, route.found⟩
      | dir | link => cases wrote

theorem Target.below {target : Target} (becomes : Node.Becomes (s.node? target.place) (some node))
    (other : node ≠ .dir) : target.place ≠ [] := by
  intro root
  have dir : s.node? target.place = some .dir := if_pos root
  exact other (Option.some.inj (dir ▸ becomes).dir)

theorem entry_put {target : Target} {ending : Ending} (looked : s.lookup ending p = .ok target)
    (below : target.place ≠ []) (becomes : Node.Becomes (s.node? target.place) (some node))
    (solid : node.IsSolid) : (s.put target.place node).entry p = .ok (target.place, node) := by
  refine (grows_put below becomes).lookup looked ?_ solid
  rw [node?_put s _ _ _ below, if_pos rfl]

theorem write_takes (wrote : s.write p content = .ok s') : s'.Took p content := by
  obtain ⟨target, looked, ⟨rfl, becomes⟩ | ⟨rfl, device⟩⟩ := write_cases wrote
  · have below := Target.below becomes Node.noConfusion
    exact ⟨_, .inl (entry_put looked below becomes (Node.file_solid _ _))⟩
  · exact ⟨_, .inr ((Grows.refl _).lookup looked device Node.device_solid)⟩

theorem write_touches (wrote : s.write p content = .ok s') :
    s.Touches s' (fun _ => False) (· = p) := by
  obtain ⟨target, looked, ⟨rfl, becomes⟩ | ⟨rfl, device⟩⟩ := write_cases wrote
  · have below := Target.below becomes Node.noConfusion
    have leads := entry_put looked below becomes (Node.file_solid _ _)
    exact .put below becomes (.inr ⟨p, content, rfl, leads⟩)
  · exact .refl _ _ _

/-- A file can be written here: nothing stands there, or a device. -/
def Open (s : Store) (place : Place) : Prop := s.node? place = none ∨ s.node? place = some .device

theorem write_named {name : Text} (leads : s.entry p = .ok (place, .dir))
    (askable : (p.child name).Askable) (enters : Enters .create name [])
    (opens : s.Open (place ++ [name])) (content : Content) :
    ∃ s', s.write (p.child name) content = .ok s' ∧ s'.entry p = .ok (place, .dir) ∧
      ∀ other, other ≠ place ++ [name] → s'.node? other = s.node? other := by
  have named : name ≠ [] := fun empty => enters.named (.inl empty)
  have onto {target : Target} (last : ∀ links, Route s .create links place [name] target) :
      s.lookup .create (p.child name) = .ok target :=
    lookup_eq_ok_iff.mpr ⟨askable, (entry_route leads).2.onto named last⟩
  rcases opens with vacant | device
  · have looked := onto fun _ => .free (entry_node leads) enters vacant
    have below : place ++ [name] ≠ [] := by simp
    have created : Node.Becomes (s.node? (place ++ [name])) (some (.file content none)) :=
      vacant ▸ .created content
    refine ⟨s.put (place ++ [name]) (.file content none), by rw [write, looked]; rfl,
      (grows_put below created).entry_dir leads, fun other differ => ?_⟩
    rw [node?_put _ _ _ _ below, if_neg differ]
  · have looked := onto fun _ =>
      .down (entry_node leads) enters device Node.device_solid (.here device)
    exact ⟨s, by rw [write, looked]; rfl, leads, fun _ _ => rfl⟩

end Write

section Dirs

theorem makeDir_cases (made : s.makeDir p = .ok s') :
    ∃ parent name, s.lookup .keepLink p = .ok (.vacant parent name) ∧
      s.node? (parent ++ [name]) = none ∧ s' = s.put (parent ++ [name]) .dir := by
  unfold makeDir at made
  cases looked : s.lookup .keepLink p with
  | error fault => simp [looked, bind, Except.bind] at made
  | ok target =>
    rw [looked] at made
    cases target with
    | found place node => cases made
    | vacant parent name =>
      cases made
      exact ⟨parent, name, rfl, (lookup_eq_ok_iff.mp looked).2.vacant.2, rfl⟩

/-- A directory stands where the path leads to, and nothing else is new. -/
structure Readies (s : Store) (p : Path) (s' : Store) : Prop where
  touches : s.Touches s' (·.LeadsTo p) (fun _ => False)
  leads : ∃ place, s'.entry p = .ok (place, .dir)

theorem makeDir_readies (made : s.makeDir p = .ok s') : s.Readies p s' := by
  obtain ⟨parent, name, looked, vacant, rfl⟩ := makeDir_cases made
  have below : parent ++ [name] ≠ [] := by simp
  have becomes : Node.Becomes (s.node? (parent ++ [name])) (some .dir) := vacant ▸ .made
  have leads := entry_put looked below becomes Node.dir_solid
  exact ⟨.put below becomes (.inl ⟨vacant, p, ⟨rfl, List.prefix_refl _⟩, leads⟩), _, leads⟩

theorem isDir_leads (dir : s.isDir p = .ok true) : ∃ place, s.entry p = .ok (place, .dir) := by
  unfold isDir holds at dir
  split at dir
  · rename_i place node leads
    cases node with
    | dir => exact ⟨place, leads⟩
    | file | link | device => simp at dir
  · cases dir
  · split at dir <;> cases dir

theorem accept_cases {r : Refusal} (accepted : s.accept p r = .ok s') :
    s' = s ∧ ∃ place, s.entry p = .ok (place, .dir) := by
  unfold accept at accepted
  split at accepted
  · rename_i dir
    cases accepted
    exact ⟨rfl, isDir_leads dir⟩
  · cases accepted
  · cases accepted

theorem accept_readies {r : Refusal} (accepted : s.accept p r = .ok s') : s.Readies p s' := by
  obtain ⟨rfl, leads⟩ := accept_cases accepted
  exact ⟨.refl _ _ _, leads⟩

theorem makeLast_readies (made : s.makeLast p = .ok s') : s.Readies p s' := by
  unfold makeLast at made
  split at made
  · split at made
    · cases made
    · exact accept_readies made
  · exact makeDir_readies made

theorem leadsTo_of_parent {q : Path} (leads : q.LeadsTo p.parent) : q.LeadsTo p :=
  ⟨leads.1, leads.2.trans (List.dropLast_prefix _)⟩

theorem Readies.after (first : s.Touches s' (·.LeadsTo p.parent) (fun _ => False))
    (second : s'.Readies p s'') : s.Readies p s'' :=
  ⟨(first.mono (fun _ => leadsTo_of_parent) fun _ => id).trans second.touches, second.leads⟩

theorem makeDirs_touches (s : Store) (p : Path) :
    s.Touches (s.makeDirs p).1 (·.LeadsTo p) (fun _ => False) := by
  fun_induction makeDirs s p with
  | case1 p s' made => exact (makeDir_readies made).touches
  | case7 p r refused missing s' accepted => exact (accept_readies accepted).touches
  | case5 p r refused missing nonempty s' above s'' made ih =>
    rw [above] at ih
    exact (Readies.after ih (makeLast_readies made)).touches
  | case4 p r refused missing nonempty s' fault above ih
  | case6 p r refused missing nonempty s' above fault made ih =>
    rw [above] at ih
    exact ih.mono (fun _ => leadsTo_of_parent) fun _ => id
  | case2 | case3 | case8 => exact .refl _ _ _

theorem makeDirs_leads (made : (s.makeDirs p).2 = none) :
    ∃ place, (s.makeDirs p).1.entry p = .ok (place, .dir) := by
  revert made
  fun_cases makeDirs s p with
  | case1 s' made => exact fun _ => (makeDir_readies made).leads
  | case7 r refused missing s' accepted => exact fun _ => (accept_readies accepted).leads
  | case5 r refused missing nonempty s' above s'' made =>
    exact fun _ => (makeLast_readies made).leads
  | case2 | case3 | case4 | case6 | case8 =>
    intro made
    cases made

end Dirs

/-- Files written one after the other, and the store they leave. -/
inductive Writes : Store → List (Path × Content) → Store → Prop
  | nil (s : Store) : Writes s [] s
  | cons {s s' s'' : Store} {p : Path} {content : Content} {rest : List (Path × Content)}
      (wrote : s.write p content = .ok s') (later : Writes s' rest s'') :
      Writes s ((p, content) :: rest) s''

namespace Writes

variable {ws : List (Path × Content)}

theorem touches (writes : Writes s ws s') :
    s.Touches s' (fun _ => False) (· ∈ ws.map Prod.fst) := by
  induction writes with
  | nil => exact .refl _ _ _
  | cons wrote later ih =>
    refine (write_touches wrote).mono (fun _ => id) ?_ |>.trans (ih.mono (fun _ => id) ?_)
    · rintro _ rfl
      exact List.mem_cons_self
    · exact fun _ => List.mem_cons_of_mem _

theorem append {ws' : List (Path × Content)} (first : Writes s ws s') (second : Writes s' ws' s'') :
    Writes s (ws ++ ws') s'' := by
  induction first with
  | nil => exact second
  | cons wrote later ih => exact .cons wrote (ih second)

theorem split {ws' : List (Path × Content)} (writes : Writes s (ws ++ ws') s'') :
    ∃ s', Writes s ws s' ∧ Writes s' ws' s'' := by
  induction ws generalizing s with
  | nil => exact ⟨s, .nil s, writes⟩
  | cons w ws ih =>
    cases writes with
    | cons wrote later =>
      obtain ⟨s', first, second⟩ := ih later
      exact ⟨s', .cons wrote first, second⟩

theorem unique {s₁ s₂ : Store} (first : Writes s ws s₁) (second : Writes s ws s₂) : s₁ = s₂ := by
  induction first with
  | nil =>
    cases second
    rfl
  | cons wrote later ih =>
    cases second with
    | cons wrote' later' =>
      obtain rfl := Except.ok.inj (wrote.symm.trans wrote')
      exact ih later'

theorem of_open {files : List (Text × Content)} (leads : s.entry p = .ok (place, .dir))
    (differ : (files.map Prod.fst).Nodup)
    (opens : ∀ name ∈ files.map Prod.fst, (p.child name).Askable ∧ Enters .create name [] ∧
      s.Open (place ++ [name])) :
    ∃ s', Writes s (files.map fun file => (p.child file.1, file.2)) s' := by
  induction files generalizing s with
  | nil => exact ⟨s, .nil s⟩
  | cons file files ih =>
    obtain ⟨askable, enters, open'⟩ := opens file.1 List.mem_cons_self
    obtain ⟨other, differ⟩ := List.nodup_cons.mp differ
    obtain ⟨s₁, wrote, leads, kept⟩ := write_named leads askable enters open' file.2
    obtain ⟨s', later⟩ := ih leads differ fun name member => by
      obtain ⟨askable, enters, open'⟩ := opens name (List.mem_cons_of_mem _ member)
      refine ⟨askable, enters, ?_⟩
      rwa [Open, kept]
      intro same
      exact other (List.cons.inj (List.append_cancel_left same) |>.1 ▸ member)
    exact ⟨s', .cons wrote later⟩

theorem remains (writes : Writes s ws s') (member : p ∈ ws.map Prod.fst) :
    ∃ content, s'.Took p content := by
  induction writes with
  | nil => exact absurd member List.not_mem_nil
  | cons wrote later ih =>
    rcases List.mem_cons.mp member with rfl | member
    · exact later.touches.grows.took (write_takes wrote)
    · exact ih member

end Writes

end Store

end Unbundle
