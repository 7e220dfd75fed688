import Unbundle.Proofs.Store.Route

namespace Unbundle.Store

/-- Following steps from a place ends for a cause: nothing is there, a step goes on from what is no
    directory, a name is too long, or too many links were followed. -/
inductive Astray (s : Store) : Nat → Place → List Text → Cause → Prop
  | gone {links : Nat} {place : Place} {steps : List Text} (missing : s.node? place = none) :
      Astray s links place steps .noEntry
  | barred {links : Nat} {place : Place} {step : Text} {steps : List Text} {node : Node}
      (stands : s.node? place = some node) (other : node ≠ .dir) :
      Astray s links place (step :: steps) .notDirectory
  | long {links : Nat} {place : Place} {step : Text} {steps : List Text}
      (dir : s.node? place = some .dir) (named : ¬ (step = [] ∨ step = ".")) (notUp : step ≠ "..")
      (long : nameLimit < (Utf8.encode step).length) :
      Astray s links place (step :: steps) .nameTooLong
  | free {links : Nat} {place : Place} {step : Text} {steps : List Text}
      (dir : s.node? place = some .dir) (enters : Enters .followLink step steps)
      (vacant : s.node? (place ++ [step]) = none) : Astray s links place (step :: steps) .noEntry
  | spent {place : Place} {step target : Text} {steps : List Text}
      (dir : s.node? place = some .dir) (enters : Enters .followLink step steps)
      (link : s.node? (place ++ [step]) = some (.link target)) :
      Astray s 0 place (step :: steps) .tooManyLinks
  | stay {links : Nat} {place : Place} {step : Text} {steps : List Text} {cause : Cause}
      (dir : s.node? place = some .dir) (dot : step = [] ∨ step = ".")
      (rest : Astray s links place steps cause) : Astray s links place (step :: steps) cause
  | up {links : Nat} {place : Place} {steps : List Text} {cause : Cause}
      (dir : s.node? place = some .dir) (rest : Astray s links place.dropLast steps cause) :
      Astray s links place (".." :: steps) cause
  | follow {links : Nat} {place : Place} {step target : Text} {steps : List Text} {cause : Cause}
      (dir : s.node? place = some .dir) (enters : Enters .followLink step steps)
      (link : s.node? (place ++ [step]) = some (.link target))
      (rest : Astray s links (if Path.rootOf target = .relative then place else [])
        (targetSteps target ++ steps) cause) : Astray s (links + 1) place (step :: steps) cause
  | down {links : Nat} {place : Place} {step : Text} {steps : List Text} {node : Node}
      {cause : Cause} (dir : s.node? place = some .dir) (enters : Enters .followLink step steps)
      (stands : s.node? (place ++ [step]) = some node) (solid : node.IsSolid)
      (rest : Astray s links (place ++ [step]) steps cause) :
      Astray s links place (step :: steps) cause

variable {s : Store} {p : Path} {place : Place} {steps : List Text} {links : Nat} {cause : Cause}

/-- A lookup is refused, or it ends with a name that is free. -/
def Refused (s : Store) (links : Nat) (place : Place) (steps : List Text) (cause : Cause) : Prop :=
  s.walk .followLink links place steps = .error cause ∨
    cause = .noEntry ∧
      ∃ parent name, s.walk .followLink links place steps = .ok (.vacant parent name)

theorem Refused.congr {links' : Nat} {place' : Place} {steps' : List Text}
    (refused : Refused s links' place' steps' cause)
    (same : s.walk .followLink links place steps = s.walk .followLink links' place' steps') :
    Refused s links place steps cause := by
  rw [Refused, same]
  exact refused

theorem Astray.refused (astray : Astray s links place steps cause) :
    Refused s links place steps cause := by
  induction astray with
  | @gone links place steps missing => cases steps <;> exact .inl (by rw [walk, missing])
  | barred stands other =>
    refine .inl ?_
    rw [walk, stands]
    rename_i node
    cases node with
    | dir => exact absurd rfl other
    | file | link | device => rfl
  | long dir named notUp long =>
    refine .inl ?_
    have spelt (steps : List Text) : ¬ (Ending.followLink = .create ∧ steps = [[]]) := by simp
    rw [walk, dir]
    simp only [named, notUp, spelt, long, if_true, if_false]
  | @free links place step steps dir enters vacant =>
    have ran : s.walk .followLink links place (step :: steps) =
        if steps.isEmpty then .ok (.vacant place step) else .error .noEntry := by
      rw [walk, dir]
      simp only [enters.named, enters.notUp, enters.spelt, enters.short, if_false, vacant]
    cases steps with
    | nil => exact .inr ⟨rfl, place, step, ran⟩
    | cons => exact .inl ran
  | spent dir enters link =>
    refine .inl ?_
    rw [walk, dir]
    simp only [enters.named, enters.notUp, enters.spelt, enters.short, if_false, link]
    simp
  | stay dir dot rest ih => exact ih.congr (walk_stay dir dot)
  | up dir rest ih => exact ih.congr (walk_up dir)
  | follow dir enters link rest ih => exact ih.congr (walk_follow dir enters link (by simp))
  | down dir enters stands solid rest ih => exact ih.congr (walk_down dir enters stands solid)

theorem found_or_astray (s : Store) (links : Nat) (place : Place) (steps : List Text) :
    (∃ place' node, s.walk .followLink links place steps = .ok (.found place' node)) ∨
      ∃ cause, Astray s links place steps cause := by
  fun_induction walk s .followLink links place steps with
  | case1 links place node stands => exact .inl ⟨place, node, rfl⟩
  | case2 links place missing => exact .inr ⟨_, .gone missing⟩
  | case3 links place step steps missing => exact .inr ⟨_, .gone missing⟩
  | case4 links place step steps dir dot ih =>
    exact ih.imp id (Exists.imp fun _ => .stay dir dot)
  | case5 links place steps dir named ih =>
    exact ih.imp id (Exists.imp fun _ => .up dir)
  | case6 links place step steps dir named notUp spelt => exact absurd spelt.1 Ending.noConfusion
  | case7 links place step steps dir named notUp spelt long =>
    exact .inr ⟨_, .long dir named notUp long⟩
  | case8 links place step steps dir named notUp spelt short vacant
  | case9 links place step steps dir named notUp spelt short vacant =>
    exact .inr ⟨_, .free dir ⟨named, notUp, spelt, short⟩ vacant⟩
  | case10 => exact .inl ⟨_, _, rfl⟩
  | case11 place step steps dir named notUp spelt short text link =>
    exact .inr ⟨_, .spent dir ⟨named, notUp, spelt, short⟩ link⟩
  | case12 place step steps dir named notUp spelt short text link kept links ih =>
    exact ih.imp id (Exists.imp fun _ => .follow dir ⟨named, notUp, spelt, short⟩ link)
  | case13 links place step steps dir named notUp spelt short node solid stands ih =>
    exact ih.imp id (Exists.imp fun _ => .down dir ⟨named, notUp, spelt, short⟩ stands solid)
  | case14 links place step steps node other stands => exact .inr ⟨_, .barred stands other⟩

/-- Why a path leads to no entry. -/
inductive Misleads (s : Store) (p : Path) : Cause → Prop
  | long (long : pathLimit ≤ (Utf8.encode p.toText).length) : Misleads s p .nameTooLong
  | astray {cause : Cause} (short : ¬ pathLimit ≤ (Utf8.encode p.toText).length)
      (astray : Astray s linkLimit (s.origin p) p.parts cause) : Misleads s p cause

theorem Misleads.entry (misleads : s.Misleads p cause) (noNul : ¬ p.hasNul) :
    s.entry p = .error (refusal cause p) := by
  cases misleads with
  | long long =>
    rw [Store.entry, lookup, if_neg noNul, if_pos long]
    rfl
  | astray short astray =>
    rw [Store.entry, lookup, if_neg noNul, if_neg short]
    rcases astray.refused with refused | ⟨rfl, parent, name, vacant⟩
    · rw [refused]
      rfl
    · rw [vacant]
      rfl

/-- A path leads to an entry, or there is a cause for which it does not. -/
theorem leads_or_misleads (s : Store) (noNul : ¬ p.hasNul) :
    (∃ place node, s.entry p = .ok (place, node)) ∨ ∃ cause, s.Misleads p cause := by
  by_cases long : pathLimit ≤ (Utf8.encode p.toText).length
  · exact .inr ⟨_, .long long⟩
  rcases s.found_or_astray linkLimit (s.origin p) p.parts with
    ⟨place, node, found⟩ | ⟨cause, astray⟩
  · refine .inl ⟨place, node, entry_eq_ok_iff.mpr (lookup_eq_ok_iff.mpr ⟨⟨noNul, long⟩, ?_⟩)⟩
    exact route_of_walk found
  · exact .inr ⟨cause, .astray long astray⟩

theorem entry_refused_iff (noNul : ¬ p.hasNul) :
    s.entry p = .error (refusal cause p) ↔ s.Misleads p cause := by
  refine ⟨fun refused => ?_, fun misleads => misleads.entry noNul⟩
  rcases s.leads_or_misleads noNul with ⟨place, node, leads⟩ | ⟨cause', misleads⟩
  · cases leads.symm.trans refused
  · cases (misleads.entry noNul).symm.trans refused
    exact misleads

end Unbundle.Store
