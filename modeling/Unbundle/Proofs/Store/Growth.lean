import Unbundle.Proofs.Lookup
import Unbundle.Proofs.Store.Route

namespace Unbundle

/-- What may become of the entry of a place. -/
inductive Node.Becomes : Option Node → Option Node → Prop
  | same (node : Option Node) : Becomes node node
  | made : Becomes none (some .dir)
  | created (content : Content) : Becomes none (some (.file content none))
  | changed (old : Content) (time : Option Int) (new : Content) :
      Becomes (some (.file old time)) (some (.file new none))

namespace Node.Becomes

theorem trans {a b c : Option Node} (first : Becomes a b) (second : Becomes b c) : Becomes a c := by
  cases first with
  | same => exact second
  | made => cases second; exact .made
  | created =>
    cases second with
    | same => exact .created _
    | changed => exact .created _
  | changed =>
    cases second with
    | same => exact .changed _ _ _
    | changed => exact .changed _ _ _

theorem ne_none {a b : Option Node} (becomes : Becomes a b) (stands : a ≠ none) : b ≠ none := by
  cases becomes <;> first | exact stands | simp

theorem dir {b : Option Node} (becomes : Becomes (some .dir) b) : b = some .dir := by
  cases becomes
  rfl

theorem link {text : Text} {b : Option Node} (becomes : Becomes (some (.link text)) b) :
    b = some (.link text) := by
  cases becomes
  rfl

theorem device {b : Option Node} (becomes : Becomes (some .device) b) : b = some .device := by
  cases becomes
  rfl

theorem fresh {content : Content} {b : Option Node}
    (becomes : Becomes (some (.file content none)) b) : ∃ new, b = some (.file new none) := by
  cases becomes <;> exact ⟨_, rfl⟩

theorem file {a : Option Node} {content : Content}
    (becomes : Becomes a (some (.file content none))) :
    a = none ∨ ∃ old time, a = some (.file old time) := by
  cases becomes with
  | same => exact .inr ⟨_, _, rfl⟩
  | created => exact .inl rfl
  | changed => exact .inr ⟨_, _, rfl⟩

theorem solid {node : Node} {b : Option Node} (becomes : Becomes (some node) b)
    (solid : node.IsSolid) : ∃ node', b = some node' ∧ node'.IsSolid := by
  cases becomes with
  | same => exact ⟨node, rfl, solid⟩
  | changed => exact ⟨_, rfl, fun _ => Node.noConfusion⟩

theorem no_link {node : Option Node} {text : Text} (becomes : Becomes node (some (.link text))) :
    node = some (.link text) := by
  cases becomes
  rfl

theorem was_device {node : Option Node} (becomes : Becomes node (some .device)) :
    node = some .device := by
  cases becomes
  rfl

end Node.Becomes

namespace Store

/-- What the later store keeps of the earlier one. -/
structure Grows (s s' : Store) : Prop where
  cwd : s'.cwd = s.cwd
  places : s.entries.map Prod.fst <+: s'.entries.map Prod.fst
  becomes : ∀ place, Node.Becomes (s.node? place) (s'.node? place)

namespace Grows

variable {s s' s'' : Store}

theorem refl (s : Store) : s.Grows s := ⟨rfl, List.prefix_refl _, fun _ => .same _⟩

theorem trans (first : s.Grows s') (second : s'.Grows s'') : s.Grows s'' where
  cwd := second.cwd.trans first.cwd
  places := first.places.trans second.places
  becomes place := (first.becomes place).trans (second.becomes place)

theorem origin (grows : s.Grows s') (p : Path) : s'.origin p = s.origin p := by
  rw [Store.origin, Store.origin, grows.cwd]

end Grows

variable {s s' : Store} {place other : Place} {node : Node}

theorem node?_of_ne (s : Store) (below : place ≠ []) : s.node? place = s.entries.lookup place :=
  if_neg below

theorem node?_put (s : Store) (place other : Place) (node : Node) (below : place ≠ []) :
    (s.put place node).node? other = if other = place then some node else s.node? other := by
  by_cases root : other = []
  · subst root
    rw [if_neg below.symm]
    rfl
  rw [node?_of_ne _ root, node?_of_ne _ root]
  exact lookup_set s.entries place other node

theorem places_put (s : Store) (place : Place) (node : Node) :
    s.entries.map Prod.fst <+: (s.put place node).entries.map Prod.fst :=
  keys_prefix_set s.entries place node

theorem grows_put (below : place ≠ []) (becomes : Node.Becomes (s.node? place) (some node)) :
    s.Grows (s.put place node) where
  cwd := rfl
  places := s.places_put place node
  becomes other := by
    rw [node?_put s place other node below]
    split
    · rename_i same
      rw [same]
      exact becomes
    · exact .same _

theorem Enters.loosen {ending ending' : Ending} {step : Text} {steps : List Text}
    (enters : Enters ending step steps) (looser : ending' = ending ∨ ending' = .followLink) :
    Enters ending' step steps where
  named := enters.named
  notUp := enters.notUp
  spelt := by
    rcases looser with rfl | rfl
    · exact enters.spelt
    · simp
  short := enters.short

theorem Route.grows {ending ending' : Ending} {links : Nat} {steps : List Text} {target : Target}
    (route : Route s ending links place steps target) (grows : s.Grows s')
    (looser : ending' = ending ∨ ending' = .followLink)
    (stands : s'.node? target.place = some node) (solid : node.IsSolid) :
    Route s' ending' links place steps (.found target.place node) := by
  -- Directories and links on the way stay what they are. Only the entry at the end can be another
  -- one, so what stands there now is a hypothesis about the target's place.
  induction route with
  | here _ => exact .here stands
  | stay dir dot rest ih =>
    have dir := (dir ▸ grows.becomes _).dir
    exact .stay dir dot (ih stands)
  | up dir rest ih =>
    have dir := (dir ▸ grows.becomes _).dir
    exact .up dir (ih stands)
  | free dir enters vacant =>
    have dir := (dir ▸ grows.becomes _).dir
    exact .down dir (enters.loosen looser) stands solid (.here stands)
  | keep dir enters link kept =>
    have link := (link ▸ grows.becomes _).link
    rw [Target.place, link] at stands
    exact absurd (Option.some.inj stands).symm (solid _)
  | follow dir enters link followed rest ih =>
    have dir := (dir ▸ grows.becomes _).dir
    have link := (link ▸ grows.becomes _).link
    refine .follow dir (enters.loosen looser) link ?_ (ih stands)
    rcases looser with rfl | rfl
    · exact followed
    · simp
  | down dir enters there solid' rest ih =>
    have dir := (dir ▸ grows.becomes _).dir
    obtain ⟨node', there, solid'⟩ := Node.Becomes.solid (there ▸ grows.becomes _) solid'
    exact .down dir (enters.loosen looser) there solid' (ih stands)

section Entry

variable {p : Path} {ending : Ending} {target : Target} (grows : s.Grows s')

include grows

theorem Grows.lookup_found {ending' : Ending} (looked : s.lookup ending p = .ok target)
    (looser : ending' = ending ∨ ending' = .followLink)
    (stands : s'.node? target.place = some node) (solid : node.IsSolid) :
    s'.lookup ending' p = .ok (.found target.place node) := by
  obtain ⟨askable, route⟩ := lookup_eq_ok_iff.mp looked
  refine lookup_eq_ok_iff.mpr ⟨askable, ?_⟩
  rw [grows.origin]
  exact route.grows grows looser stands solid

theorem Grows.lookup (looked : s.lookup ending p = .ok target)
    (stands : s'.node? target.place = some node) (solid : node.IsSolid) :
    s'.entry p = .ok (target.place, node) :=
  entry_eq_ok_iff.mpr (grows.lookup_found looked (.inr rfl) stands solid)

theorem Grows.entry (leads : s.entry p = .ok (place, node)) (solid : node.IsSolid) :
    ∃ node', s'.entry p = .ok (place, node') ∧ s'.node? place = some node' ∧ node'.IsSolid := by
  obtain ⟨node', stands, solid'⟩ :=
    Node.Becomes.solid (entry_node leads ▸ grows.becomes place) solid
  exact ⟨node', grows.lookup (entry_eq_ok_iff.mp leads) stands solid', stands, solid'⟩

end Entry

end Store

end Unbundle
