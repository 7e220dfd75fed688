import Unbundle.Proofs.Store.Writing
import Unbundle.Store.Locate

namespace Unbundle

theorem Path.child_name {p q : Path} {a b : Text} (same : p.child a = q.child b) : a = b :=
  List.append_inj_right' (congrArg Path.parts same) rfl |> List.cons.inj |>.1

theorem Path.child_eq_iff {p : Path} {a b : Text} : p.child a = p.child b ↔ a = b :=
  ⟨Path.child_name, congrArg _⟩

namespace Store

def Linkless (s : Store) : Prop := ∀ place text, s.node? place ≠ some (.link text)

def stride (place : Place) (step : Text) : Place :=
  if step = [] ∨ step = "." then place
  else if step = ".." then place.dropLast
  else place ++ [step]

/-- Where a path leads, links apart. -/
def straight (s : Store) (p : Path) : Place := p.parts.foldl stride (s.origin p)

/-- A step that is an entry's own name. -/
structure IsName (step : Text) : Prop where
  named : ¬ (step = [] ∨ step = ".")
  notUp : step ≠ ".."

instance : DecidablePred IsName := fun step =>
  decidable_of_iff (¬ (step = [] ∨ step = ".") ∧ step ≠ "..")
    ⟨fun is => ⟨is.1, is.2⟩, fun is => ⟨is.named, is.notUp⟩⟩

def Apart (p q : Path) : Prop :=
  ∃ above below a b, p = Path.child above a ∧ q = Path.child below b ∧
    IsName a ∧ IsName b ∧ a ≠ b

variable {s s' : Store} {p q : Path} {place : Place} {steps : List Text} {name : Text}

instance : Std.Symm Apart where
  symm p q apart := by
    obtain ⟨above, below, a, b, first, second, named, named', differ⟩ := apart
    exact ⟨below, above, b, a, second, first, named', named, differ.symm⟩

theorem Apart.ne (apart : Apart p q) : p ≠ q := by
  obtain ⟨above, below, a, b, rfl, rfl, -, -, differ⟩ := apart
  exact fun same => differ (Path.child_name same)

theorem stride_name (isName : IsName name) : stride place name = place ++ [name] := by
  rw [stride, if_neg isName.named, if_neg isName.notUp]

theorem stride_up : stride place ".." = place.dropLast := by
  rw [stride, if_neg (by decide), if_pos rfl]

theorem node_of_entries {node : Node} (absent : ∀ entry ∈ s.entries, entry.2 ≠ node)
    (other : node ≠ .dir) (place : Place) : s.node? place ≠ some node := by
  intro stands
  unfold node? at stands
  split at stands
  · cases stands
    exact other rfl
  · obtain ⟨before, after, entries, -⟩ := List.lookup_eq_some_iff.mp stands
    exact absent _ (entries ▸ List.mem_append_right _ List.mem_cons_self) rfl

theorem linkless_of_entries (linkless : ∀ entry ∈ s.entries, ∀ text, entry.2 ≠ .link text) :
    s.Linkless :=
  fun place text => node_of_entries (fun entry member => linkless entry member text)
    Node.noConfusion place

theorem Grows.linkless (grows : s.Grows s') (linkless : s.Linkless) : s'.Linkless := by
  intro place text link
  exact linkless place text (link ▸ grows.becomes place).no_link

theorem straight_child (isName : IsName name) :
    s.straight (p.child name) = s.straight p ++ [name] := by
  rw [straight, Path.child, List.foldl_append, List.foldl_cons, List.foldl_nil,
    stride_name isName]
  rfl

theorem Grows.straight (grows : s.Grows s') (p : Path) : s'.straight p = s.straight p := by
  rw [Store.straight, Store.straight, grows.origin]

section Linkless

variable (linkless : s.Linkless)

include linkless

theorem Route.straight {ending : Ending} {links : Nat} {target : Target}
    (route : Route s ending links place steps target) :
    target.place = steps.foldl stride place := by
  induction route with
  | here => rfl
  | stay dir dot rest ih => rw [ih, List.foldl_cons, stride, if_pos dot]
  | up dir rest ih => rw [ih, List.foldl_cons, stride_up]
  | free dir enters vacant =>
    rw [List.foldl_cons, stride_name ⟨enters.named, enters.notUp⟩]
    rfl
  | keep dir enters link => exact absurd link (linkless _ _)
  | follow dir enters link => exact absurd link (linkless _ _)
  | down dir enters stands solid rest ih =>
    rw [ih, List.foldl_cons, stride_name ⟨enters.named, enters.notUp⟩]

theorem entry_straight {node : Node} (leads : s.entry p = .ok (place, node)) :
    place = s.straight p :=
  (entry_route leads).2.straight linkless

theorem Took.stands {content : Content} (took : s.Took p content) :
    ∃ node, s.node? (s.straight p) = some node ∧ node ≠ .dir := by
  obtain ⟨place, file | device⟩ := took
  · rw [← entry_straight linkless file]
    exact ⟨_, entry_node file, by simp⟩
  · rw [← entry_straight linkless device]
    exact ⟨_, entry_node device, by simp⟩

theorem Apart.not_meet (apart : Apart p q) : ¬ s.Meet p q := by
  obtain ⟨above, below, a, b, rfl, rfl, first, second, differ⟩ := apart
  rintro ⟨place, node, leads, leads'⟩
  have same := (entry_straight linkless leads).symm.trans (entry_straight linkless leads')
  rw [straight_child first, straight_child second] at same
  exact differ (List.append_inj_right' same rfl |> List.cons.inj |>.1)

theorem no_loop {ending : Ending} {links : Nat} :
    s.walk ending links place steps ≠ .error .tooManyLinks := by
  fun_induction walk s ending links place steps with
  | case4 _ _ _ _ _ _ ih | case5 _ _ _ _ _ ih | case13 _ _ _ _ _ _ _ _ _ _ _ _ ih => exact ih
  | case11 _ _ _ _ _ _ _ _ text link | case12 _ _ _ _ _ _ _ _ text link =>
    exact absurd link (linkless _ _)
  | case1 | case2 | case3 | case6 | case7 | case8 | case9 | case10 | case14 => simp

theorem entry_no_loop {path : Option Text} :
    s.entry p ≠ .error (.refused ⟨.tooManyLinks, path⟩) := by
  intro refused
  unfold entry lookup at refused
  split at refused
  · cases refused
  split at refused
  · cases refused
  cases walked : s.walk .followLink linkLimit (s.origin p) p.parts with
  | ok target =>
    rw [walked] at refused
    cases target <;> cases refused
  | error cause =>
    rw [walked] at refused
    cases refused
    exact no_loop linkless walked

end Linkless

section Locating

theorem lexical_append (place : Place) (steps more : List Text) :
    lexical place (steps ++ more) = lexical (lexical place steps) more := by
  induction steps generalizing place with
  | nil => rfl
  | cons step steps ih =>
    rw [List.cons_append, lexical, lexical]
    split <;> exact ih _

theorem placeOf_child (notUp : name ≠ "..") : s.placeOf (p.child name) = s.placeOf p ++ [name] := by
  rw [placeOf, placeOf, Path.child, lexical_append, lexical, if_neg notUp]
  rfl

theorem placeOf_up : s.placeOf (p.child "..") = (s.placeOf p).dropLast := by
  rw [placeOf, placeOf, Path.child, lexical_append, lexical, if_pos rfl]
  rfl

def Descends (p : Path) : Prop := p.root ≠ .relative → ([.scalar '.', .scalar '.'] : Text) ∉ p.parts

theorem placeOf_above (descends : Descends p) :
    s.placeOf (above p) = (s.placeOf p).dropLast ∧ Descends (above p) := by
  unfold above
  split
  · rename_i climbs
    have relative := of_decide_eq_true (Bool.and_eq_true_iff.mp climbs).1
    exact ⟨placeOf_up, fun root => absurd relative root⟩
  · rename_i stays
    rcases List.eq_nil_or_concat p.parts with none | ⟨before, last, parts⟩
    · have root : p.root ≠ .relative := by
        intro relative
        exact stays (by simp [relative, none])
      refine ⟨?_, fun _ => by simp [Path.parent, none]⟩
      simp [placeOf, Path.parent, none, origin, root, lexical]
    · have notUp : last ≠ [.scalar '.', .scalar '.'] := by
        rintro rfl
        by_cases relative : p.root = .relative
        · exact stays (by simp [relative, Path.name, parts])
        · exact descends relative (by simp [parts])
      have child : p = (p.parent).child last := by
        cases p
        simp_all [Path.parent, Path.child]
      refine ⟨?_, fun root member => ?_⟩
      · conv_rhs => rw [child, placeOf_child notUp, List.dropLast_concat]
      · exact descends root (List.dropLast_subset _ member)

theorem linkAt_linkless (linkless : s.Linkless) (p : Path) : s.linkAt p = none := by
  unfold linkAt
  split
  · rename_i place text looked
    exact absurd (lookup_eq_ok_iff.mp looked).2.found (linkless _ _)
  · rfl

theorem settle_straight (linkless : s.Linkless) (descends : Descends p) (depth : Nat)
    (pending : List Path) (steps : List Text) :
    ∃ reached, s.settle depth pending p steps = (reached, true) ∧
      s.placeOf reached = steps.foldl stride (s.placeOf p) := by
  -- No step is a link, so nothing becomes pending and each step moves the place by one stride.
  induction steps generalizing p with
  | nil => exact ⟨p, by rw [settle], rfl⟩
  | cons step steps ih =>
    rw [settle, List.foldl_cons]
    by_cases dot : step = [] ∨ step = "."
    · rw [if_pos dot, stride, if_pos dot]
      exact ih descends
    by_cases up : step = ".."
    · obtain ⟨climbed, descends⟩ := placeOf_above (s := s) descends
      rw [if_neg dot, if_pos up, up, stride_up, ← climbed]
      exact ih descends
    · rw [if_neg dot, if_neg up, stride_name ⟨dot, up⟩, ← placeOf_child up]
      simp only [linkAt_linkless linkless]
      refine ih fun root member => ?_
      rcases List.mem_append.mp member with before | last
      · exact descends root before
      · exact up (List.mem_singleton.mp last).symm

theorem settle_name (depth : Nat) {name : Text} (isName : IsName name)
    (plain : s.linkAt (p.child name) = none) :
    s.settle depth [] p [name] = (p.child name, true) := by
  rw [settle, if_neg isName.named, if_neg isName.notUp]
  simp only [plain]
  rw [settle]

theorem settle_start (linkless : s.Linkless) (depth : Nat) (p : Path) :
    s.placeOf (s.settle depth [] (start p) p.parts).1 = s.straight p := by
  unfold start
  by_cases relative : p.root = .relative
  · rw [if_pos relative]
    obtain ⟨reached, settled, place⟩ :=
      settle_straight linkless (p := ⟨.relative, []⟩) (absurd rfl) depth [] p.parts
    rw [settled, place, straight, origin, if_pos relative]
    rfl
  · rw [if_neg relative]
    obtain ⟨reached, settled, place⟩ :=
      settle_straight linkless (p := ⟨.slash, []⟩) (fun _ => List.not_mem_nil) depth [] p.parts
    rw [settled, place, straight, origin, if_neg relative]
    rfl

theorem resolved_straight (linkless : s.Linkless) (p : Path) :
    s.resolved p = ofPlace (s.straight p) := by
  rw [resolved, settle_start linkless]

/-- The absolute spelling of the path leads through too many links. -/
def Loops (s : Store) (p : Path) : Prop :=
  ∃ path, s.entry (s.resolved p) = .error (.refused ⟨.tooManyLinks, path⟩)

theorem Linkless.not_loops (linkless : s.Linkless) (p : Path) : ¬ s.Loops p :=
  fun ⟨_, loop⟩ => entry_no_loop linkless loop

theorem locate_whole (noNul : ¬ p.hasNul) (stands : p.root = .relative → s.node? s.cwd ≠ none)
    (whole : ¬ s.Loops p) : s.locate p = .ok (s.resolved p) := by
  have rooted : (p.root = .relative && (s.node? s.cwd).isNone) = false := by
    by_cases relative : p.root = .relative
    · simp [relative, Option.isNone_eq_false_iff, Option.isSome_iff_ne_none, stands relative]
    · simp [relative]
  rw [locate, if_neg noNul, rooted, if_neg Bool.false_ne_true]
  split
  · rename_i path loop
    exact absurd ⟨path, loop⟩ whole
  · rfl

theorem locate_of_leads {node : Node} (leads : s.entry p = .ok (place, node))
    (whole : ¬ s.Loops p) : s.locate p = .ok (s.resolved p) := by
  obtain ⟨askable, route⟩ := entry_route leads
  refine locate_whole askable.1 (fun relative => ?_) whole
  have start := route.start
  rwa [origin, if_pos relative] at start

theorem locate_straight (linkless : s.Linkless) (noNul : ¬ p.hasNul)
    (stands : p.root = .relative → s.node? s.cwd ≠ none) :
    s.locate p = .ok (ofPlace (s.straight p)) := by
  rw [locate_whole noNul stands (linkless.not_loops p), resolved_straight linkless]

theorem locate_place {node : Node} (linkless : s.Linkless) (leads : s.entry p = .ok (place, node)) :
    s.locate p = .ok (ofPlace place) := by
  rw [locate_of_leads leads (linkless.not_loops p), resolved_straight linkless,
    entry_straight linkless leads]

end Locating

theorem makeDirs_start (made : (s.makeDirs p).2 = none) : s.node? (s.origin p) ≠ none := by
  -- That the path leads somewhere afterwards tells only of the later store, so this is an induction
  -- of its own.
  revert made
  fun_induction makeDirs s p with
  | case1 p s' made =>
    obtain ⟨parent, name, looked, -⟩ := makeDir_cases made
    exact fun _ => (lookup_eq_ok_iff.mp looked).2.start
  | case7 p r refused missing s' accepted =>
    obtain ⟨-, place, leads⟩ := accept_cases accepted
    exact fun _ => (entry_route leads).2.start
  | case5 p r refused missing nonempty s' above s'' made ih =>
    rw [above] at ih
    exact fun _ => ih rfl
  | case2 | case3 | case4 | case6 | case8 =>
    intro made
    cases made

end Store

end Unbundle
