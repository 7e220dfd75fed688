import Unbundle.Proofs.Store.Locating

namespace Unbundle.Store

def onward (p : Path) (target : Text) : Path :=
  if Path.rootOf target = .relative then p else ⟨.slash, []⟩

variable {s : Store} {p q r : Path} {place : Place} {step target : Text} {steps more : List Text}
  {cost cost' links depth : Nat} {pending : List Path} {node : Node}

section Passage

/-- How steps are resolved from a path, and how many links are followed for that. -/
inductive Passage (s : Store) : Nat → Path → List Text → Path → Prop
  | done {p : Path} : Passage s 0 p [] p
  | stay {cost : Nat} {p q : Path} {step : Text} {steps : List Text} (dot : step = [] ∨ step = ".")
      (rest : Passage s cost p steps q) : Passage s cost p (step :: steps) q
  | up {cost : Nat} {p q : Path} {steps : List Text}
      (rest : Passage s cost (Store.above p) steps q) :
      Passage s cost p (".." :: steps) q
  | down {cost : Nat} {p q : Path} {step : Text} {steps : List Text} (isName : IsName step)
      (solid : s.linkAt (p.child step) = none) (rest : Passage s cost (p.child step) steps q) :
      Passage s cost p (step :: steps) q
  | follow {cost cost' : Nat} {p q r : Path} {step target : Text} {steps : List Text}
      (isName : IsName step) (link : s.linkAt (p.child step) = some target)
      (inside : Passage s cost (onward p target) (target.splitOn Path.separator) r)
      (rest : Passage s cost' r steps q) : Passage s (cost + cost' + 1) p (step :: steps) q

namespace Passage

theorem unique (first : Passage s cost p steps q) (second : Passage s cost' p steps r) :
    cost = cost' ∧ q = r := by
  induction first generalizing cost' r with
  | done =>
    cases second
    exact ⟨rfl, rfl⟩
  | stay dot rest ih =>
    cases second with
    | stay _ rest' => exact ih rest'
    | up => exact absurd dot (by decide)
    | down isName | follow isName => exact absurd dot isName.named
  | up rest ih =>
    cases second with
    | stay dot => exact absurd dot (by decide)
    | up rest' => exact ih rest'
    | down isName | follow isName => exact absurd rfl isName.notUp
  | down isName solid rest ih =>
    cases second with
    | stay dot => exact absurd dot isName.named
    | up => exact absurd rfl isName.notUp
    | down _ _ rest' => exact ih rest'
    | follow _ link => cases solid.symm.trans link
  | follow isName link inside rest ih ih' =>
    cases second with
    | stay dot => exact absurd dot isName.named
    | up => exact absurd rfl isName.notUp
    | down _ solid => cases solid.symm.trans link
    | follow _ link' inside' rest' =>
      cases link.symm.trans link'
      obtain ⟨rfl, rfl⟩ := ih inside'
      obtain ⟨rfl, rfl⟩ := ih' rest'
      exact ⟨rfl, rfl⟩

theorem split (passage : Passage s cost p (steps ++ more) q) : ∃ before after r,
    cost = before + after ∧ Passage s before p steps r ∧ Passage s after r more q := by
  induction steps generalizing cost p with
  | nil => exact ⟨0, cost, p, (Nat.zero_add cost).symm, .done, passage⟩
  | cons step steps ih =>
    cases passage with
    | stay dot rest =>
      obtain ⟨before, after, r, total, first, second⟩ := ih rest
      exact ⟨before, after, r, total, .stay dot first, second⟩
    | up rest =>
      obtain ⟨before, after, r, total, first, second⟩ := ih rest
      exact ⟨before, after, r, total, .up first, second⟩
    | down isName solid rest =>
      obtain ⟨before, after, r, total, first, second⟩ := ih rest
      exact ⟨before, after, r, total, .down isName solid first, second⟩
    | @follow inner outer _ _ _ _ _ _ isName link inside rest =>
      obtain ⟨before, after, r, total, first, second⟩ := ih rest
      exact ⟨inner + before + 1, after, r, by omega, .follow isName link inside first, second⟩

theorem of_filter (passage : Passage s cost p (steps.filter (!·.isEmpty)) q) :
    Passage s cost p steps q := by
  induction steps generalizing cost p with
  | nil => exact passage
  | cons step steps ih =>
    by_cases empty : step = []
    · subst empty
      exact .stay (.inl rfl) (ih passage)
    · rw [List.filter_cons_of_pos (by simpa using empty)] at passage
      cases passage with
      | stay dot rest => exact .stay dot (ih rest)
      | up rest => exact .up (ih rest)
      | down isName solid rest => exact .down isName solid (ih rest)
      | follow isName link inside rest => exact .follow isName link inside (ih rest)

theorem of_targetSteps (passage : Passage s cost p (targetSteps target) q) :
    Passage s cost p (target.splitOn Path.separator) q := by
  unfold targetSteps at passage
  dsimp only at passage
  split at passage
  · obtain ⟨before, after, r, total, first, second⟩ := passage.split
    cases second with
    | stay _ rest =>
      cases rest
      exact total ▸ first.of_filter
    | down isName | follow isName => exact absurd (.inl rfl) isName.named
  · exact passage.of_filter

/-- The links being resolved: each takes more links to follow than are still to come. -/
def Pends (s : Store) (cost : Nat) (pending : List Path) : Prop :=
  ∀ link ∈ pending, ∃ (above : Path) (name : Text) (own : Nat) (r : Path),
    link = above.child name ∧ Passage s own above [name] r ∧ cost < own

theorem Pends.mono (pends : Pends s cost pending) (less : cost' ≤ cost) :
    Pends s cost' pending := by
  intro link member
  obtain ⟨above, name, own, r, same, passage, more⟩ := pends link member
  exact ⟨above, name, own, r, same, passage, Nat.lt_of_le_of_lt less more⟩

/-- What can be passed is resolved. A link met again inside itself would take more links to follow
    than it takes, so there is no loop on the way. -/
theorem settles (passage : Passage s cost p steps q) (enough : cost ≤ depth)
    (pends : Pends s cost pending) : s.settle depth pending p steps = (q, true) := by
  induction passage generalizing depth pending with
  | done => rw [settle]
  | stay dot rest ih =>
    rw [settle, if_pos dot]
    exact ih enough pends
  | up rest ih =>
    rw [settle, if_neg (by decide), if_pos rfl]
    exact ih enough pends
  | down isName solid rest ih =>
    rw [settle, if_neg isName.named, if_neg isName.notUp]
    simp only [solid]
    exact ih enough pends
  | @follow inner outer p q r step target steps isName link inside rest ih ih' =>
    have own : Passage s (inner + 0 + 1) p [step] r := .follow isName link inside .done
    have fresh : p.child step ∉ pending := by
      intro member
      obtain ⟨above, name, taken, r', same, passage, more⟩ := pends _ member
      obtain rfl := Path.child_name same
      obtain rfl : p = above := by
        rw [← p.parent_of_child step, ← above.parent_of_child step, same]
      obtain ⟨rfl, -⟩ := own.unique passage
      omega
    obtain ⟨depth, rfl⟩ := Nat.exists_eq_add_one_of_ne_zero (show depth ≠ 0 by omega)
    have pends' : Pends s inner (p.child step :: pending) := by
      intro other member
      rcases List.mem_cons.mp member with rfl | member
      · exact ⟨p, step, _, r, rfl, own, by omega⟩
      · exact pends.mono (by omega) other member
    have enough' : inner ≤ depth := by omega
    have settled := ih enough' pends'
    unfold onward at settled
    rw [settle, if_neg isName.named, if_neg isName.notUp]
    simp only [link, List.contains_iff_mem, fresh, if_false, settled]
    exact ih' (by omega) (pends.mono (by omega))

end Passage

end Passage

section Treading

/-- A path without links that was followed to a place: up from where it starts, then down. -/
inductive Trodden (s : Store) : Path → Place → Prop
  | start (root : Root) : Trodden s ⟨root, []⟩ (s.origin ⟨root, []⟩)
  | up {p : Path} {place : Place} (trodden : Trodden s p place) (relative : p.root = .relative)
      (dir : s.node? place = some .dir) : Trodden s (p.child "..") place.dropLast
  | down {p : Path} {place : Place} {step : Text} {node : Node} (trodden : Trodden s p place)
      (dir : s.node? place = some .dir) (enters : Enters .followLink step [])
      (stands : s.node? (place ++ [step]) = some node) (solid : node.IsSolid) :
      Trodden s (p.child step) (place ++ [step])

namespace Trodden

variable (trodden : Trodden s p place)

include trodden

theorem placeOf : s.placeOf p = place := by
  induction trodden with
  | start => rfl
  | up trodden relative dir ih => rw [placeOf_up, ih]
  | down trodden dir enters stands solid ih => rw [placeOf_child enters.notUp, ih]

theorem noNul (formed : s.Formed) : ¬ p.hasNul := by
  induction trodden with
  | start => simp [Path.hasNul]
  | up trodden relative dir ih => exact Path.noNul_child ih (by decide)
  | @down p place step node trodden dir enters stands solid ih =>
    have taken := ne_of_eq_of_ne stands (Option.some_ne_none node)
    have isName := formed.names taken step (by simp)
    exact Path.noNul_child ih fun nul => (isName.plain _ nul).2 rfl

theorem walk {ending : Ending} (old : ending ≠ .create) (more : List Text) :
    s.walk ending links (s.origin p) (p.parts ++ more) = s.walk ending links place more := by
  induction trodden generalizing more with
  | start => rfl
  | @up p place trodden relative dir ih =>
    have climbed := ih (".." :: more)
    rw [walk_up dir] at climbed
    rw [Path.child, List.append_assoc]
    exact climbed
  | @down p place step node trodden dir enters stands solid ih =>
    have enters : Enters ending step more :=
      ⟨enters.named, enters.notUp, fun spelt => old spelt.1, enters.short⟩
    have entered := ih (step :: more)
    rw [walk_down dir enters stands solid] at entered
    rw [Path.child, List.append_assoc]
    exact entered

theorem above (dir : s.node? place = some .dir) : Trodden s (Store.above p) place.dropLast := by
  unfold Store.above
  split
  · rename_i climbs
    exact trodden.up (of_decide_eq_true (Bool.and_eq_true_iff.mp climbs).1) dir
  · rename_i stays
    rw [Bool.and_eq_true, decide_eq_true_eq, Bool.or_eq_true, List.isEmpty_iff, beq_iff_eq] at stays
    cases trodden with
    | start root =>
      have rooted : root ≠ .relative := fun relative => stays ⟨relative, .inl rfl⟩
      have place : (s.origin ⟨root, []⟩).dropLast = s.origin ⟨root, []⟩ := by
        rw [origin, if_neg rooted]
        rfl
      rw [place]
      exact .start root
    | @up p place trodden relative => exact absurd ⟨relative, .inr (p.name_child "..")⟩ stays
    | @down p place step _ trodden =>
      rw [Path.parent_of_child, List.dropLast_concat]
      exact trodden

theorem route {reached : Target} :
    Route s .keepLink linkLimit (s.origin (p.child step)) (p.child step).parts reached ↔
      Route s .keepLink linkLimit place [step] reached := by
  rw [← walk_eq_ok_iff, ← walk_eq_ok_iff]
  exact iff_of_eq (congrArg (· = Except.ok reached) (trodden.walk Ending.noConfusion [step]))

theorem linkAt_solid (enters : Enters .followLink step [])
    (solid : ∀ target, s.node? (place ++ [step]) ≠ some (.link target)) :
    s.linkAt (p.child step) = none := by
  unfold linkAt
  split
  · rename_i place' target looked
    cases trodden.route.mp (lookup_eq_ok_iff.mp looked).2 with
    | stay dir dot => exact absurd dot enters.named
    | up => exact absurd rfl enters.notUp
    | keep dir _ link => exact absurd link (solid target)
    | follow dir _ link followed => exact absurd ⟨rfl, rfl⟩ followed
    | down dir _ stands notLink rest =>
      cases rest with
      | here link => exact absurd link (solid target)
  · rfl

theorem linkAt_link (formed : s.Formed) (dir : s.node? place = some .dir)
    (enters : Enters .followLink step []) (link : s.node? (place ++ [step]) = some (.link target))
    (short : ¬ pathLimit ≤ (Utf8.encode (p.child step).toText).length) :
    s.linkAt (p.child step) = some target := by
  have taken := ne_of_eq_of_ne link (Option.some_ne_none _)
  have isName := formed.names taken step (by simp)
  have noNul := Path.noNul_child (trodden.noNul formed) fun nul => (isName.plain _ nul).2 rfl
  have kept : Enters .keepLink step [] := ⟨enters.named, enters.notUp, by simp, enters.short⟩
  have looked : s.lookup .keepLink (p.child step) =
      .ok (.found (place ++ [step]) (.link target)) :=
    lookup_eq_ok_iff.mpr ⟨⟨noNul, short⟩, trodden.route.mpr (.keep dir kept link rfl)⟩
  rw [linkAt, looked]

end Trodden

/-- The links that a path leads through, each as it is spelt once those before it are resolved. -/
def trail (s : Store) (links : Nat) (p : Path) : List Text → List Path
  | [] => []
  | step :: steps =>
    if step = [] ∨ step = "." then trail s links p steps
    else if step = ".." then trail s links (above p) steps
    else
      match s.node? (s.placeOf p ++ [step]) with
      | some (.link target) =>
        match links with
        | 0 => []
        | links + 1 =>
          p.child step :: trail s links (onward p target) (targetSteps target ++ steps)
      | _ => trail s links (p.child step) steps
termination_by steps => (links, steps.length)

theorem trail_up : s.trail links p (".." :: steps) = s.trail links (above p) steps := by
  rw [trail, if_neg (by decide), if_pos rfl]

theorem trail_link (isName : IsName step)
    (link : s.node? (s.placeOf p ++ [step]) = some (.link target)) :
    s.trail (links + 1) p (step :: steps) =
      p.child step :: s.trail links (onward p target) (targetSteps target ++ steps) := by
  rw [trail, if_neg isName.named, if_neg isName.notUp, link]

theorem trail_down (isName : IsName step) (stands : s.node? (s.placeOf p ++ [step]) = some node)
    (solid : node.IsSolid) :
    s.trail links p (step :: steps) = s.trail links (p.child step) steps := by
  rw [trail, if_neg isName.named, if_neg isName.notUp, stands]
  cases node with
  | link target => exact absurd rfl (solid target)
  | dir | file | device => rfl

/-- Each path can be asked for. -/
def Within (ps : List Path) : Prop := ∀ p ∈ ps, ¬ pathLimit ≤ (Utf8.encode p.toText).length

instance : DecidablePred Within := fun ps => inferInstanceAs (Decidable (∀ p ∈ ps, _))

theorem trodden_onward (trodden : Trodden s p place) (target : Text) :
    Trodden s (onward p target) (if Path.rootOf target = .relative then place else []) := by
  unfold onward
  split
  · exact trodden
  · exact .start .slash

theorem passage_of_route {reached : Target} (formed : s.Formed)
    (route : Route s .followLink links place steps reached) (trodden : Trodden s p place)
    (within : Within (s.trail links p steps)) :
    ∃ cost q, cost ≤ links ∧ Passage s cost p steps q ∧ s.placeOf q = reached.place := by
  -- A lookup goes on with the target's steps and the rest as one list; resolving takes the target
  -- for itself. So a passage of both is split behind each link.
  induction route generalizing p with
  | here => exact ⟨0, p, Nat.zero_le _, .done, trodden.placeOf⟩
  | stay dir dot rest ih =>
    rw [trail, if_pos dot] at within
    obtain ⟨cost, q, few, passage, place⟩ := ih trodden within
    exact ⟨cost, q, few, .stay dot passage, place⟩
  | up dir rest ih =>
    rw [trail_up] at within
    obtain ⟨cost, q, few, passage, place⟩ := ih (trodden.above dir) within
    exact ⟨cost, q, few, .up passage, place⟩
  | free dir enters vacant =>
    have solid := trodden.linkAt_solid enters (by simp [vacant])
    refine ⟨0, _, Nat.zero_le _, .down ⟨enters.named, enters.notUp⟩ solid .done, ?_⟩
    rw [placeOf_child enters.notUp, trodden.placeOf]
    rfl
  | keep _ _ _ kept => cases kept
  | @follow links place step target steps reached dir enters link followed rest ih =>
    have enters' : Enters .followLink step [] := ⟨enters.named, enters.notUp, by simp, enters.short⟩
    rw [trail_link ⟨enters.named, enters.notUp⟩ (trodden.placeOf ▸ link)] at within
    obtain ⟨short, within⟩ := List.forall_mem_cons.mp within
    obtain ⟨cost, q, few, passage, place⟩ := ih (trodden_onward trodden target) within
    obtain ⟨inner, outer, r, rfl, inside, rest⟩ := passage.split
    refine ⟨inner + outer + 1, q, Nat.succ_le_succ few, ?_, place⟩
    exact .follow ⟨enters.named, enters.notUp⟩ (trodden.linkAt_link formed dir enters' link short)
      inside.of_targetSteps rest
  | @down links place step steps node reached dir enters stands solid rest ih =>
    have enters' : Enters .followLink step [] := ⟨enters.named, enters.notUp, by simp, enters.short⟩
    have notLink : ∀ target, s.node? (place ++ [step]) ≠ some (.link target) := by
      intro target link
      exact solid target (Option.some.inj (stands.symm.trans link))
    rw [trail_down ⟨enters.named, enters.notUp⟩ (trodden.placeOf ▸ stands) solid] at within
    obtain ⟨cost, q, few, passage, place⟩ := ih (trodden.down dir enters' stands solid) within
    exact ⟨cost, q, few,
      .down ⟨enters.named, enters.notUp⟩ (trodden.linkAt_solid enters' notLink) passage, place⟩

theorem trodden_start (s : Store) (p : Path) : Trodden s (start p) (s.origin p) := by
  unfold start origin
  split
  · exact .start .relative
  · exact .start .slash

/-- The absolute spelling of a path is the place that it leads to. -/
theorem resolved_of_leads (formed : s.Formed) (leads : s.entry p = .ok (place, node))
    (within : Within (s.trail linkLimit (start p) p.parts)) : s.resolved p = ofPlace place := by
  obtain ⟨cost, q, few, passage, reached⟩ :=
    passage_of_route formed (entry_route leads).2 (s.trodden_start p) within
  have enough : cost ≤ s.depthLimit := Nat.le_add_right_of_le few
  rw [resolved, passage.settles enough fun _ none => absurd none List.not_mem_nil, reached]
  rfl

end Treading

end Unbundle.Store
