import Unbundle.Proofs.Split.Course
import Unbundle.Proofs.Store.Astray
import Unbundle.Proofs.Store.Beneath
import Unbundle.Proofs.Store.Resolving
import Unbundle.Proofs.Text.Bytes

namespace Unbundle.Store

variable {s : Store} {input q : Path} {place : Place} {node : Node} {document : Document}

/-- The entry at a place under its absolute spelling. Neither a link nor a step up is on the way. -/
structure Spells (s : Store) (q : Path) (place : Place) (node : Node) : Prop where
  absolute : q = ofPlace place
  names : ∀ name ∈ q.parts, IsName name
  stands : s.node? place = some node
  unbent : ∀ above below, q.parts = above ++ below → below ≠ [] → s.node? above = some .dir
  leads : s.entry q = if Overlong ⟨.slash, []⟩ place then .error (refusal .nameTooLong q)
    else .ok (place, node)

theorem root_leads (s : Store) : s.entry ⟨.slash, []⟩ = .ok ([], .dir) :=
  entry_eq_ok_iff.mpr (lookup_eq_ok_iff.mpr ⟨by decide, .here rfl⟩)

theorem spells_ofPlace (formed : s.Formed) (stands : s.node? place = some node)
    (solid : node.IsSolid) : s.Spells (ofPlace place) place node where
  absolute := rfl
  names name member :=
    (formed.names (ne_of_eq_of_ne stands (Option.some_ne_none node)) name member).toIsName
  stands := stands
  unbent above below split some := by
    have taken : s.node? (above ++ below) ≠ none := by
      rw [← split]
      exact ne_of_eq_of_ne stands (Option.some_ne_none node)
    exact formed.dir_above taken some
  leads :=
    formed.entry_beneath (root_leads s) (show s.node? ([] ++ place) = some node from stands) solid

theorem validate_ok_iff : s.validate input = .ok () ↔
    ∃ place content time, s.entry input = .ok (place, .file content time) := by
  refine ⟨file_of_validate, ?_⟩
  rintro ⟨place, content, time, leads⟩
  rw [validate, leads]

theorem validate_fails (noNul : ¬ input.hasNul) {f : Failure}
    (failed : s.validate input = .error f) :
    f.title = "NotFoundError" ∧ s.Misleads input .noEntry ∨
      f.title = "InvalidInputError" ∧ ¬ s.Misleads input .noEntry := by
  rw [← entry_refused_iff noNul]
  rcases s.leads_or_misleads noNul with ⟨place, node, leads⟩ | ⟨cause, misleads⟩
  · rw [validate, leads] at failed
    rw [leads]
    cases node <;> cases failed <;> exact .inr ⟨rfl, fun same => by cases same⟩
  · have entry := misleads.entry noNul
    rw [validate, entry] at failed
    rw [entry]
    by_cases missing : cause = .noEntry
    · subst missing
      cases failed
      exact .inl ⟨rfl, rfl⟩
    · have failed : Failure.unreachable input ⟨cause, some input.toText⟩ = f :=
        Except.error.inj ((if_neg missing).symm.trans failed)
      subst failed
      refine .inr ⟨rfl, fun same => ?_⟩
      cases same
      exact missing rfl

theorem validate_title_iff (noNul : ¬ input.hasNul) :
    (∃ f, s.validate input = .error f ∧ f.title = "NotFoundError") ↔ s.Misleads input .noEntry := by
  constructor
  · rintro ⟨f, failed, title⟩
    rcases validate_fails noNul failed with ⟨-, misleads⟩ | ⟨other, -⟩
    · exact misleads
    · exact absurd (title.symm.trans other) (by decide)
  · intro misleads
    refine ⟨.absent input, ?_, rfl⟩
    rw [validate, misleads.entry noNul]
    rfl

/-- Checking says exactly whether a path leads to a file, and tells a missing one from all others.
    What it accepts is read under an absolute spelling that no step up is left in. That is the place
    of the file, with no link on the way, if no link was spelt too long while it was resolved. -/
theorem readPage_agrees (formed : s.Formed) (proper : input.Proper) (noNul : ¬ input.hasNul) :
    (s.validate input = .ok () ↔ input.Askable ∧ ∃ place content time,
      Route s .followLink linkLimit (s.origin input) input.parts
        (.found place (.file content time))) ∧
    ((∃ f, s.validate input = .error f ∧ f.title = "NotFoundError") ↔
      s.Misleads input .noEntry) ∧
    (∀ f, s.validate input = .error f → ¬ s.Misleads input .noEntry →
      f.title = "InvalidInputError") ∧
    (s.validate input = .ok () → ∃ place content time,
      s.entry input = .ok (place, .file content time) ∧
      (∀ document, s.readPage input = .ok document →
        document.text = Utf8.decode content.data ∧ document.path.root = .slash ∧
          ∀ name ∈ document.path.parts, IsName name) ∧
      (Within (s.trail linkLimit (start input) input.parts) →
        ∃ document, s.readPage input = .ok document ∧
          s.Spells document.path place (.file content time))) := by
  refine ⟨?_, validate_title_iff noNul, fun f failed led => ?_, fun valid => ?_⟩
  · rw [validate_ok_iff]
    constructor
    · rintro ⟨place, content, time, leads⟩
      obtain ⟨askable, route⟩ := entry_route leads
      exact ⟨askable, place, content, time, route⟩
    · rintro ⟨askable, place, content, time, route⟩
      exact ⟨place, content, time, entry_eq_ok_iff.mpr (lookup_eq_ok_iff.mpr ⟨askable, route⟩)⟩
  · rcases validate_fails noNul failed with ⟨-, misleads⟩ | ⟨title, -⟩
    · exact absurd misleads led
    · exact title
  · obtain ⟨place, content, time, leads⟩ := validate_ok_iff.mp valid
    refine ⟨place, content, time, leads, fun document read => ?_, fun within => ?_⟩
    · obtain ⟨text, located⟩ := readPage_text leads read
      exact ⟨text, locate_names formed proper located⟩
    · have spells := spells_ofPlace formed (entry_node leads) (Node.file_solid _ _)
      have resolved := resolved_of_leads formed leads within
      have whole : ¬ s.Loops input := by
        rintro ⟨path, loop⟩
        rw [resolved, spells.leads] at loop
        split at loop <;> cases loop
      exact ⟨_, readPage_of_file leads whole, resolved ▸ spells⟩

/-- A directory with a page, and a link that leads there with a step up in between. -/
def linked : Store :=
  ⟨[(["d"], .dir), (["d", "p.html"], .file (.bytes [0x78]) none), (["l"], .link "d/../d")], []⟩

def linked.page : Path := ⟨.relative, ["l", "p.html"]⟩

theorem linked_trail :
    linked.trail linkLimit (start linked.page) linked.page.parts = [⟨.relative, ["l"]⟩] := by
  have link : linked.node? (linked.placeOf (start linked.page) ++ (["l"] : Place)) =
      some (.link "d/../d") := rfl
  have dir : linked.node? ["d"] = some .dir := rfl
  have file : linked.node? ["d", "p.html"] = some (.file (.bytes [0x78]) none) := rfl
  have onward : linked.trail 39 ⟨.relative, []⟩ ["d", "..", "d", "p.html"] = [] :=
    calc linked.trail 39 ⟨.relative, []⟩ ["d", "..", "d", "p.html"]
        = linked.trail 39 ⟨.relative, []⟩ ["d", "p.html"] :=
          (trail_down (by decide) dir Node.dir_solid).trans trail_up
      _ = linked.trail 39 ⟨.relative, ["d", "p.html"]⟩ [] :=
          (trail_down (by decide) dir Node.dir_solid).trans
            (trail_down (by decide) file (Node.file_solid _ _))
      _ = [] := by rw [trail]
  exact (trail_link (by decide) link).trans (congrArg _ onward)

theorem linked_formed : linked.Formed := by
  refine formed_of_entries (by decide) (by decide) ?_ ?_ <;>
    simp only [linked, List.forall_mem_cons, List.not_mem_nil, false_implies, implies_true]
  · exact ⟨rfl, rfl, rfl, trivial⟩
  · exact ⟨nofun, nofun, fun text same => Node.link.inj same ▸ by decide, trivial⟩

theorem linked_entry :
    linked.entry linked.page = .ok (["d", "p.html"], .file (.bytes [0x78]) none) := by
  have below : Route linked .followLink 39 ["d"] ["p.html"]
      (.found ["d", "p.html"] (.file (.bytes [0x78]) none)) :=
    .down rfl (by decide) (rfl : linked.node? ["d", "p.html"] = some (.file (.bytes [0x78]) none))
      (Node.file_solid _ _) (.here rfl)
  have down {steps : List Text} {reached : Target}
      (rest : Route linked .followLink 39 ["d"] steps reached) :
      Route linked .followLink 39 [] ("d" :: steps) reached :=
    .down rfl ⟨by decide, by decide, by simp, by decide⟩ (rfl : linked.node? ["d"] = some .dir)
      Node.dir_solid rest
  have link : linked.node? ["l"] = some (.link "d/../d") := rfl
  refine entry_eq_ok_iff.mpr (lookup_eq_ok_iff.mpr ⟨⟨by decide, by decide⟩, ?_⟩)
  exact .follow rfl ⟨by decide, by decide, by simp, by decide⟩ link (by simp)
    (down (.up rfl (down below)))

theorem readPage_agrees_of_linked : linked.Formed ∧ linked.page.Proper ∧ ¬ linked.page.hasNul ∧
    Within (linked.trail linkLimit (start linked.page) linked.page.parts) ∧
    linked.validate linked.page = .ok () ∧
    ∃ document, linked.readPage linked.page = .ok document ∧ document.text = "x" ∧
      linked.Spells document.path ["d", "p.html"] (.file (.bytes [0x78]) none) := by
  have proper : linked.page.Proper := by decide
  have within : Within (linked.trail linkLimit (start linked.page) linked.page.parts) := by
    rw [linked_trail]
    decide
  have valid := validate_ok_iff.mpr ⟨_, _, _, linked_entry⟩
  obtain ⟨-, -, -, read⟩ := readPage_agrees linked_formed proper (by decide)
  obtain ⟨place, content, time, leads, told, located⟩ := read valid
  cases linked_entry.symm.trans leads
  obtain ⟨document, read, spells⟩ := located within
  have text : Utf8.decode [0x78] = "x" := by decide +kernel
  exact ⟨linked_formed, proper, by decide, within, valid, document, read,
    (told document read).1.trans text, spells⟩

section Winding

def ups (n : Nat) : List Text := List.replicate n ".."

def climb (n : Nat) : Text := Text.joinWith "/" (ups n)

/-- A page, and a link from the root to itself by steps up. -/
def winding (n : Nat) : Store :=
  ⟨[(["u"], .link (climb (n + 1))), (["p.html"], .file (.bytes [0x78]) none)], []⟩

def winding.page : Path := ⟨.relative, ["u", "u", "p.html"]⟩

theorem climb_succ (n : Nat) : climb (n + 2) = ".." ++ ("/" : Text) ++ climb (n + 1) :=
  Text.joinWith_cons _ _ _ _

theorem climb_symbols (n : Nat) : ∀ x ∈ climb n, x = .scalar '.' ∨ x = .scalar '/' := by
  have first : ∀ x ∈ (".." ++ ("/" : Text) : Text), x = .scalar '.' ∨ x = .scalar '/' := by decide
  induction n with
  | zero => exact nofun
  | succ n ih =>
    cases n with
    | zero => exact fun x member => first x (List.mem_append_left _ member)
    | succ n =>
      rw [climb_succ]
      intro x member
      exact (List.mem_append.mp member).elim (first x) (ih x)

theorem climb_splitOn (n : Nat) : (climb (n + 1)).splitOn Path.separator = ups (n + 1) := by
  refine Text.splitOn_joinWith (fun piece member => ?_) (List.cons_ne_nil _ _)
  rw [(List.mem_replicate.mp member).2]
  decide

theorem climb_ends (n : Nat) : (climb (n + 1)).endsWith "/" = false := by
  have last : (climb (n + 1)).getLast? = some (.scalar '.') := by
    induction n with
    | zero => rfl
    | succ n ih =>
      rw [climb_succ, List.getLast?_append_of_ne_nil _ ?_, ih]
      intro none
      rw [none] at ih
      cases ih
  rw [Text.endsWith, ← Bool.not_eq_true, List.isSuffixOf_iff_suffix]
  rintro ⟨before, same⟩
  rw [← same, List.getLast?_append_of_ne_nil _ (by decide)] at last
  cases last

theorem climb_targetSteps (n : Nat) : targetSteps (climb (n + 1)) = ups (n + 1) := by
  have kept : (ups (n + 1)).filter (!·.isEmpty) = ups (n + 1) := by
    refine List.filter_eq_self.mpr fun step member => ?_
    rw [(List.mem_replicate.mp member).2]
    rfl
  rw [targetSteps, climb_ends, climb_splitOn, kept]
  rfl

theorem climb_relative (n : Nat) : Path.rootOf (climb (n + 1)) = .relative := by
  cases n with
  | zero => rfl
  | succ n =>
    rw [climb_succ]
    rfl

theorem Route.climbs {links : Nat} {more : List Text} {reached : Target}
    (route : Route s .followLink links [] more reached) (n : Nat) :
    Route s .followLink links [] (ups n ++ more) reached := by
  induction n with
  | zero => exact route
  | succ n ih => exact .up rfl ih

theorem lexical_ups (n : Nat) : lexical [] (ups n) = [] := by
  induction n with
  | zero => rfl
  | succ n ih => exact ih

theorem ups_succ (n : Nat) : ups (n + 1) = ups n ++ ([".."] : List Text) := List.replicate_succ'

theorem above_ups (n : Nat) : above ⟨.relative, ups n⟩ = ⟨.relative, ups (n + 1)⟩ := by
  have climbs : (decide (Root.relative = .relative) &&
      ((ups n).isEmpty || Path.name ⟨.relative, ups n⟩ == "..")) = true := by
    cases n with
    | zero => rfl
    | succ n =>
      rw [ups_succ]
      simp [Path.name]
  rw [above, if_pos climbs, ups_succ]
  rfl

theorem Passage.climbs (n m : Nat) :
    Passage s 0 ⟨.relative, ups m⟩ (ups n) ⟨.relative, ups (m + n)⟩ := by
  induction n generalizing m with
  | zero => exact .done
  | succ n ih =>
    have rest := ih (m + 1)
    rw [Nat.add_right_comm, Nat.add_assoc] at rest
    exact .up (above_ups m ▸ rest)

theorem toText_relative {parts : List Text} (some : parts ≠ []) :
    Path.toText ⟨.relative, parts⟩ = Text.joinWith "/" parts := by
  obtain ⟨first, rest, rfl⟩ := List.exists_cons_of_ne_nil some
  rfl

theorem ups_size {names : List Text} (some : names ≠ []) (n : Nat) :
    (Utf8.encode (Path.toText ⟨.relative, ups n ++ names⟩)).length =
      3 * n + (Utf8.encode (Text.joinWith "/" names)).length := by
  have others : ups n ++ names ≠ [] := List.append_ne_nil_of_right_ne_nil _ some
  rw [toText_relative others]
  induction n with
  | zero => exact (Nat.zero_add _).symm
  | succ n ih =>
    have others : ups n ++ names ≠ [] := List.append_ne_nil_of_right_ne_nil _ some
    have ih := ih others
    obtain ⟨first, rest, split⟩ := List.exists_cons_of_ne_nil others
    have step : ups (n + 1) ++ names = (".." : Text) :: (ups n ++ names) := rfl
    have size : (Utf8.encode (".." ++ ("/" : Text))).length = 3 := by decide
    rw [step, split, Text.joinWith_cons, ← split, Utf8.encode_append, List.length_append, size, ih]
    omega

theorem linkAt_long (long : pathLimit ≤ (Utf8.encode q.toText).length) : s.linkAt q = none := by
  unfold linkAt
  split
  · rename_i looked
    exact absurd long (lookup_eq_ok_iff.mp looked).1.short
  · rfl

theorem winding_formed (n : Nat) : (winding n).Formed := by
  have noNul : .scalar '\x00' ∉ climb (n + 1) := by
    intro nul
    exact absurd (climb_symbols _ _ nul) (by decide)
  refine formed_of_entries (by simp [winding]) ?_ ?_ ?_ <;>
    simp only [winding, List.forall_mem_cons, List.not_mem_nil, false_implies, implies_true]
  · exact ⟨by decide, by decide, trivial⟩
  · exact ⟨rfl, rfl, trivial⟩
  · exact ⟨fun text same => Node.link.inj same ▸ noNul, nofun, trivial⟩

theorem winding_route (n links around : Nat) : Route (winding n) .followLink (links + around) []
    (List.replicate around ("u" : Text) ++ ([("p.html" : Text)] : List Text))
    (.found ["p.html"] (.file (.bytes [0x78]) none)) := by
  induction around with
  | zero =>
    exact .down rfl ⟨by decide, by decide, by simp, by decide⟩
      (rfl : (winding n).node? ["p.html"] = some (.file (.bytes [0x78]) none))
      (Node.file_solid _ _) (.here rfl)
  | succ around ih =>
    refine .follow rfl ⟨by decide, by decide, by simp, by decide⟩
      (rfl : (winding n).node? ["u"] = some (.link (climb (n + 1)))) (by simp) ?_
    rw [climb_relative, climb_targetSteps]
    exact ih.climbs _

theorem winding_entry (n : Nat) :
    (winding n).entry winding.page = .ok (["p.html"], .file (.bytes [0x78]) none) :=
  entry_eq_ok_iff.mpr
    (lookup_eq_ok_iff.mpr ⟨⟨by decide, by decide⟩, winding_route n 38 2⟩)

theorem winding_resolved {n : Nat} (long : pathLimit ≤ 3 * (n + 1) + 1) :
    (winding n).resolved winding.page = ofPlace ["u", "p.html"] := by
  -- The first `u` is seen for a link. The second is spelt behind all its steps up, and too long.
  have seen : (winding n).linkAt ⟨.relative, ["u"]⟩ = some (climb (n + 1)) :=
    (Trodden.start .relative).linkAt_link (winding_formed n) rfl
      ⟨by decide, by decide, by simp, by decide⟩ rfl (by decide)
  have hidden {names : List Text} (some : names ≠ [])
      (size : 1 ≤ (Utf8.encode (Text.joinWith "/" names)).length) :
      (winding n).linkAt ⟨.relative, ups (n + 1) ++ names⟩ = none := by
    refine linkAt_long (Nat.le_trans long ?_)
    rw [ups_size some]
    omega
  have inside : Passage (winding n) 0 (onward ⟨.relative, []⟩ (climb (n + 1)))
      ((climb (n + 1)).splitOn Path.separator) ⟨.relative, ups (n + 1)⟩ := by
    have climbs := Passage.climbs (s := winding n) (n + 1) 0
    rw [Nat.zero_add] at climbs
    rw [onward, climb_relative, climb_splitOn]
    exact climbs
  have second : (winding n).linkAt (Path.child (Path.child ⟨.relative, ups (n + 1)⟩ "u") "p.html")
      = none := by
    rw [Path.child, Path.child, List.append_assoc]
    exact hidden (List.cons_ne_nil _ _) (by decide)
  have unseen : Passage (winding n) 0 ⟨.relative, ups (n + 1)⟩ ["u", "p.html"] _ :=
    .down ⟨by decide, by decide⟩ (hidden (List.cons_ne_nil _ _) (by decide))
      (.down ⟨by decide, by decide⟩ second .done)
  have passage : Passage (winding n) 1 (start winding.page) winding.page.parts _ :=
    .follow ⟨by decide, by decide⟩ seen inside unseen
  have enough : 1 ≤ (winding n).depthLimit := Nat.le_add_right_of_le (by decide)
  rw [resolved, passage.settles enough fun _ none => absurd none List.not_mem_nil,
    placeOf_child (by decide), placeOf_child (by decide)]
  have around : (winding n).placeOf ⟨.relative, ups (n + 1)⟩ = [] := lexical_ups _
  rw [around]
  rfl

theorem winding_whole {n : Nat} (long : pathLimit ≤ 3 * (n + 1) + 1) :
    ¬ (winding n).Loops winding.page := by
  rintro ⟨path, loop⟩
  have leads : (winding n).entry (ofPlace ["u", "p.html"]) = .ok (["p.html"], _) :=
    entry_eq_ok_iff.mpr
      (lookup_eq_ok_iff.mpr ⟨⟨by decide, by decide⟩, winding_route n 39 1⟩)
  rw [winding_resolved long, leads] at loop
  cases loop

/-- A page is read under a path with a link in it. -/
theorem readPage_leaves_link : (winding 1364).Formed ∧ winding.page.Proper ∧
    ¬ winding.page.hasNul ∧ (winding 1364).validate winding.page = .ok () ∧
    ∃ document, (winding 1364).readPage winding.page = .ok document ∧
      document.path = ofPlace ["u", "p.html"] ∧
      (winding 1364).node? ["u"] = some (.link (climb 1365)) := by
  have long : pathLimit ≤ 3 * (1364 + 1) + 1 := by decide
  exact ⟨winding_formed _, by decide, by decide, validate_ok_iff.mpr ⟨_, _, _, winding_entry _⟩, _,
    readPage_of_file (winding_entry _) (winding_whole long), winding_resolved long, rfl⟩

end Winding

end Unbundle.Store
