import Mathlib.Data.List.Basic
import Unbundle.Store.Lookup

namespace Unbundle

/-- The place of an entry, or the place that is free for one. -/
def Target.place : Target → Place
  | .found place _ => place
  | .vacant parent name => parent ++ [name]

def Node.IsSolid (node : Node) : Prop := ∀ target, node ≠ .link target

theorem Node.dir_solid : Node.dir.IsSolid := fun _ => Node.noConfusion

theorem Node.file_solid (content : Content) (time : Option Int) :
    (Node.file content time).IsSolid :=
  fun _ => Node.noConfusion

theorem Node.device_solid : Node.device.IsSolid := fun _ => Node.noConfusion

/-- A path that can be asked for: it holds no NUL and is not too long. -/
structure Path.Askable (p : Path) : Prop where
  noNul : ¬ p.hasNul
  short : ¬ Store.pathLimit ≤ (Utf8.encode p.toText).length

instance : DecidablePred Path.Askable := fun p =>
  decidable_of_iff (¬ p.hasNul ∧ ¬ Store.pathLimit ≤ (Utf8.encode p.toText).length)
    ⟨fun ask => ⟨ask.1, ask.2⟩, fun ask => ⟨ask.noNul, ask.short⟩⟩

namespace Store

/-- A step by name into a directory, which can be spelt in this way. -/
structure Enters (ending : Ending) (step : Text) (steps : List Text) : Prop where
  named : ¬ (step = [] ∨ step = ".")
  notUp : step ≠ ".."
  spelt : ¬ (ending = .create ∧ steps = [[]])
  short : ¬ nameLimit < (Utf8.encode step).length

instance (ending : Ending) (step : Text) (steps : List Text) :
    Decidable (Enters ending step steps) :=
  decidable_of_iff (¬ (step = [] ∨ step = ".") ∧ step ≠ ".." ∧
      ¬ (ending = .create ∧ steps = [[]]) ∧ ¬ nameLimit < (Utf8.encode step).length)
    ⟨fun is => ⟨is.1, is.2.1, is.2.2.1, is.2.2.2⟩,
      fun is => ⟨is.named, is.notUp, is.spelt, is.short⟩⟩

inductive Route (s : Store) (ending : Ending) : Nat → Place → List Text → Target → Prop
  | here {links : Nat} {place : Place} {node : Node} (stands : s.node? place = some node) :
      Route s ending links place [] (.found place node)
  | stay {links : Nat} {place : Place} {step : Text} {steps : List Text} {target : Target}
      (dir : s.node? place = some .dir) (dot : step = [] ∨ step = ".")
      (rest : Route s ending links place steps target) :
      Route s ending links place (step :: steps) target
  | up {links : Nat} {place : Place} {steps : List Text} {target : Target}
      (dir : s.node? place = some .dir)
      (rest : Route s ending links place.dropLast steps target) :
      Route s ending links place (".." :: steps) target
  | free {links : Nat} {place : Place} {step : Text} (dir : s.node? place = some .dir)
      (enters : Enters ending step []) (vacant : s.node? (place ++ [step]) = none) :
      Route s ending links place [step] (.vacant place step)
  | keep {links : Nat} {place : Place} {step text : Text} (dir : s.node? place = some .dir)
      (enters : Enters ending step []) (link : s.node? (place ++ [step]) = some (.link text))
      (kept : ending = .keepLink) :
      Route s ending links place [step] (.found (place ++ [step]) (.link text))
  | follow {links : Nat} {place : Place} {step text : Text} {steps : List Text} {target : Target}
      (dir : s.node? place = some .dir) (enters : Enters ending step steps)
      (link : s.node? (place ++ [step]) = some (.link text))
      (followed : ¬ (steps = [] ∧ ending = .keepLink))
      (rest : Route s ending links (if Path.rootOf text = .relative then place else [])
        (targetSteps text ++ steps) target) :
      Route s ending (links + 1) place (step :: steps) target
  | down {links : Nat} {place : Place} {step : Text} {steps : List Text} {node : Node}
      {target : Target} (dir : s.node? place = some .dir) (enters : Enters ending step steps)
      (stands : s.node? (place ++ [step]) = some node) (solid : node.IsSolid)
      (rest : Route s ending links (place ++ [step]) steps target) :
      Route s ending links place (step :: steps) target

variable {s : Store} {ending : Ending} {links : Nat} {place : Place} {steps : List Text}
  {target : Target}

theorem route_of_walk (ran : s.walk ending links place steps = .ok target) :
    Route s ending links place steps target := by
  fun_induction walk s ending links place steps with
  | case1 links place node stands =>
    cases ran
    exact .here stands
  | case4 links place step steps dir dot ih => exact .stay dir dot (ih ran)
  | case5 links place steps dir named ih => exact .up dir (ih ran)
  | case8 links place step steps dir named notUp spelt short vacant last =>
    cases ran
    obtain rfl := List.isEmpty_iff.mp last
    exact .free dir ⟨named, notUp, spelt, short⟩ vacant
  | case10 links place step steps dir named notUp spelt short text link kept =>
    cases ran
    obtain ⟨last, kept⟩ := Bool.and_eq_true_iff.mp kept
    obtain rfl := List.isEmpty_iff.mp last
    exact .keep dir ⟨named, notUp, spelt, short⟩ link (of_decide_eq_true kept)
  | case12 place step steps dir named notUp spelt short text link kept links ih =>
    refine .follow dir ⟨named, notUp, spelt, short⟩ link ?_ (ih ran)
    rintro ⟨rfl, rfl⟩
    exact kept rfl
  | case13 links place step steps dir named notUp spelt short node solid stands ih =>
    exact .down dir ⟨named, notUp, spelt, short⟩ stands solid (ih ran)
  | case2 | case3 | case6 | case7 | case9 | case11 | case14 => cases ran

theorem walk_stay {step : Text} (dir : s.node? place = some .dir) (dot : step = [] ∨ step = ".") :
    s.walk ending links place (step :: steps) = s.walk ending links place steps := by
  rw [walk, dir]
  simp only [dot, if_true]

theorem walk_up (dir : s.node? place = some .dir) :
    s.walk ending links place (".." :: steps) = s.walk ending links place.dropLast steps := by
  rw [walk, dir]
  simp

theorem walk_down {step : Text} {node : Node} (dir : s.node? place = some .dir)
    (enters : Enters ending step steps) (stands : s.node? (place ++ [step]) = some node)
    (solid : node.IsSolid) :
    s.walk ending links place (step :: steps) = s.walk ending links (place ++ [step]) steps := by
  rw [walk, dir]
  simp only [enters.named, enters.notUp, enters.spelt, enters.short, if_false, stands]
  cases node with
  | link text => exact absurd rfl (solid text)
  | dir | file | device => rfl

theorem walk_follow {step text : Text} (dir : s.node? place = some .dir)
    (enters : Enters ending step steps) (link : s.node? (place ++ [step]) = some (.link text))
    (followed : ¬ (steps = [] ∧ ending = .keepLink)) :
    s.walk ending (links + 1) place (step :: steps) =
      s.walk ending links (if Path.rootOf text = .relative then place else [])
        (targetSteps text ++ steps) := by
  have onward : (steps.isEmpty && decide (ending = .keepLink)) = false := by
    simpa only [Bool.and_eq_false_iff, List.isEmpty_eq_false_iff, decide_eq_false_iff_not,
      ← not_and_or] using followed
  rw [walk, dir]
  simp only [enters.named, enters.notUp, enters.spelt, enters.short, if_false, link, onward,
    Bool.false_eq_true]

theorem walk_of_route (route : Route s ending links place steps target) :
    s.walk ending links place steps = .ok target := by
  induction route with
  | here stands => rw [walk, stands]
  | stay dir dot rest ih => exact (walk_stay dir dot).trans ih
  | up dir rest ih => exact (walk_up dir).trans ih
  | free dir enters vacant =>
    rw [walk, dir]
    simp only [enters.named, enters.notUp, enters.spelt, enters.short, if_false, vacant]
    rfl
  | keep dir enters link kept =>
    rw [walk, dir]
    simp only [enters.named, enters.notUp, enters.short, if_false, link, kept]
    rfl
  | follow dir enters link followed rest ih => exact (walk_follow dir enters link followed).trans ih
  | down dir enters stands solid rest ih => exact (walk_down dir enters stands solid).trans ih

theorem walk_eq_ok_iff :
    s.walk ending links place steps = .ok target ↔ Route s ending links place steps target :=
  ⟨route_of_walk, walk_of_route⟩

namespace Route

theorem start (route : Route s ending links place steps target) : s.node? place ≠ none := by
  cases route with
  | here stands => simp [stands]
  | stay dir | up dir | free dir | keep dir | follow dir | down dir => simp [dir]

theorem found {node : Node} (route : Route s ending links place steps (.found place' node)) :
    s.node? place' = some node := by
  generalize goal : Target.found place' node = target at route
  induction route with
  | here stands => cases goal; exact stands
  | keep dir enters link kept => cases goal; exact link
  | free => cases goal
  | stay dir dot rest ih => exact ih goal
  | up dir rest ih => exact ih goal
  | follow dir enters link followed rest ih => exact ih goal
  | down dir enters stands solid rest ih => exact ih goal

theorem vacant {parent : Place} {name : Text}
    (route : Route s ending links place steps (.vacant parent name)) :
    s.node? parent = some .dir ∧ s.node? (parent ++ [name]) = none := by
  generalize goal : Target.vacant parent name = target at route
  induction route with
  | here | keep => cases goal
  | free dir enters vacant => cases goal; exact ⟨dir, vacant⟩
  | stay dir dot rest ih => exact ih goal
  | up dir rest ih => exact ih goal
  | follow dir enters link followed rest ih => exact ih goal
  | down dir enters stands solid rest ih => exact ih goal

theorem onto {name : Text} (route : Route s ending links place steps (.found place' .dir))
    (named : name ≠ []) (last : ∀ links, Route s .create links place' [name] target) :
    Route s .create links place (steps ++ [name]) target := by
  -- A new entry cannot be spelt with a closing slash, which would be an empty last step.
  have spelt (steps : List Text) : ¬ (Ending.create = .create ∧ steps ++ [name] = [[]]) := by
    rintro ⟨-, bare⟩
    have last := congrArg List.getLast? bare
    rw [List.getLast?_concat] at last
    exact named (Option.some.inj last)
  generalize goal : Target.found place' .dir = reached at route
  induction route with
  | here stands => cases goal; exact last _
  | keep => cases goal
  | free => cases goal
  | stay dir dot rest ih => exact .stay dir dot (ih goal)
  | up dir rest ih => exact .up dir (ih goal)
  | follow dir first link followed rest ih =>
    refine .follow dir ⟨first.named, first.notUp, spelt _, first.short⟩ link (by simp) ?_
    exact List.append_assoc _ _ _ ▸ ih goal
  | down dir first stands solid rest ih =>
    exact .down dir ⟨first.named, first.notUp, spelt _, first.short⟩ stands solid (ih goal)

end Route

variable {p : Path} {node : Node}

theorem lookup_eq_ok_iff : s.lookup ending p = .ok target ↔
    p.Askable ∧ Route s ending linkLimit (s.origin p) p.parts target := by
  unfold lookup
  constructor
  · intro ran
    split at ran
    · cases ran
    split at ran
    · cases ran
    rename_i noNul short
    refine ⟨⟨noNul, short⟩, walk_eq_ok_iff.mp ?_⟩
    cases walked : s.walk ending linkLimit (s.origin p) p.parts with
    | error cause => simp [walked, Except.mapError] at ran
    | ok reached => simpa [walked, Except.mapError] using ran
  · rintro ⟨askable, route⟩
    rw [if_neg askable.noNul, if_neg askable.short, walk_eq_ok_iff.mpr route]
    rfl

theorem lookup_nul_iff : s.lookup ending p = .error .nul ↔ p.hasNul := by
  unfold lookup
  constructor
  · intro ran
    split at ran
    · assumption
    split at ran
    · cases ran
    cases walked : s.walk ending linkLimit (s.origin p) p.parts with
    | error cause => simp [walked, Except.mapError, refusal] at ran
    | ok reached => simp [walked, Except.mapError] at ran
  · exact fun nul => if_pos nul

theorem entry_eq_ok_iff : s.entry p = .ok (place, node) ↔
    s.lookup .followLink p = .ok (.found place node) := by
  unfold entry
  constructor
  · intro ran
    cases looked : s.lookup .followLink p with
    | error fault => simp [looked, bind, Except.bind] at ran
    | ok target =>
      cases target with
      | vacant parent name => simp [looked, bind, Except.bind] at ran
      | found place' node' => simpa [looked, bind, Except.bind] using ran
  · intro looked
    rw [looked]
    rfl

theorem entry_nul_iff : s.entry p = .error .nul ↔ p.hasNul := by
  unfold entry
  constructor
  · intro ran
    cases looked : s.lookup .followLink p with
    | error fault =>
      rw [looked] at ran
      cases ran
      exact lookup_nul_iff.mp looked
    | ok target =>
      rw [looked] at ran
      cases target <;> cases ran
  · intro nul
    rw [lookup_nul_iff.mpr nul]
    rfl

theorem entry_route (leads : s.entry p = .ok (place, node)) : p.Askable ∧
    Route s .followLink linkLimit (s.origin p) p.parts (.found place node) :=
  lookup_eq_ok_iff.mp (entry_eq_ok_iff.mp leads)

theorem entry_node (leads : s.entry p = .ok (place, node)) : s.node? place = some node :=
  (entry_route leads).2.found

section Named

variable {name : Text} (askable : p.Askable) (parts : p.parts = [name])
  (dir : s.node? (s.origin p) = some .dir) (enters : Enters ending name [])

include askable parts dir enters

theorem lookup_name (stands : s.node? (s.origin p ++ [name]) = some node) (solid : node.IsSolid) :
    s.lookup ending p = .ok (.found (s.origin p ++ [name]) node) := by
  refine lookup_eq_ok_iff.mpr ⟨askable, ?_⟩
  rw [parts]
  exact .down dir enters stands solid (.here stands)

theorem lookup_free (vacant : s.node? (s.origin p ++ [name]) = none) :
    s.lookup ending p = .ok (.vacant (s.origin p) name) := by
  refine lookup_eq_ok_iff.mpr ⟨askable, ?_⟩
  rw [parts]
  exact .free dir enters vacant

end Named

theorem entry_name {name : Text} (askable : p.Askable) (parts : p.parts = [name])
    (dir : s.node? (s.origin p) = some .dir) (enters : Enters .followLink name [])
    (stands : s.node? (s.origin p ++ [name]) = some node) (solid : node.IsSolid) :
    s.entry p = .ok (s.origin p ++ [name], node) :=
  entry_eq_ok_iff.mpr (lookup_name askable parts dir enters stands solid)

end Store

end Unbundle
