import Mathlib.Data.List.Nodup
import Unbundle.Proofs.Store.Formed
import Unbundle.Proofs.Text.Slice

namespace Unbundle

namespace Path

variable {p q : Path} {name : Text} {locate : Locate}

theorem parent_child (some : p.name ≠ []) : p.parent.child p.name = p := by
  obtain ⟨root, parts⟩ := p
  obtain rfl | ⟨above, last, rfl⟩ := List.eq_nil_or_concat parts
  · exact absurd rfl some
  · simp [parent, child, Path.name]

theorem name_child (p : Path) (name : Text) : (p.child name).name = name := by
  simp [Path.name, child]

theorem parent_of_child (p : Path) (name : Text) : (p.child name).parent = p := by
  simp [parent, child]

theorem stemOf_suffixed {base suffix : Text} (some : base ≠ []) (suffixed : suffix ≠ [])
    (dotless : .scalar '.' ∉ suffix) : stemOf (base ++ .scalar '.' :: suffix) = base := by
  have last : (base ++ .scalar '.' :: suffix).reverse.takeWhile (· != .scalar '.') =
      suffix.reverse := by
    rw [List.reverse_append, List.reverse_cons, List.append_assoc]
    refine Text.takeWhile_exact (fun s member => ?_) (by simp)
    rw [List.mem_reverse] at member
    exact bne_iff_ne.mpr fun dot => dotless (dot ▸ member)
  have size : (base ++ .scalar '.' :: suffix).length - suffix.length - 1 = base.length := by
    rw [List.length_append, List.length_cons]
    omega
  have whole : suffix.length ≠ base.length + (suffix.length + 1) := by omega
  rw [stemOf, last, List.reverse_reverse, size]
  simp [suffixed, some, whole]

theorem stemOf_zip {base : Text} (some : base ≠ []) : stemOf (base ++ ".zip") = base :=
  stemOf_suffixed some (by decide) (by decide)

theorem archive_named {archive dir : Path} (named : dir.archive locate = .ok archive) :
    ∃ dir', dir.named locate = .ok dir' ∧ dir'.name ≠ [] ∧
      archive = dir'.withName (dir'.name ++ ".zip") := by
  unfold Path.archive at named
  cases found : dir.named locate with
  | error f => simp [found, bind, Except.bind] at named
  | ok dir' =>
    simp only [found, bind, Except.bind] at named
    split at named
    · cases named
    · rename_i some
      cases named
      exact ⟨dir', rfl, by simpa using some, rfl⟩

theorem archive_of_named {dir : Path} (named : dir.named locate = .ok p) (some : p.name ≠ []) :
    dir.archive locate = .ok (p.withName (p.name ++ ".zip")) := by
  simp only [archive, named, bind, Except.bind]
  rw [if_neg (by simpa using some)]

theorem appName_of_named {dir : Path} (named : dir.named locate = .ok p) :
    dir.appName locate = .ok (appNameOf p.name) := by
  simp only [appName, named, bind, Except.bind]

theorem archive_child {archive dir : Path} (named : dir.archive locate = .ok archive) :
    ∃ (above : Path) (name : Text), archive = above.child (name ++ ".zip") := by
  obtain ⟨dir', -, -, rfl⟩ := archive_named named
  exact ⟨_, _, rfl⟩

theorem called_alike {locate' : Locate} {dir dir' : Path}
    (same : dir.named locate = dir'.named locate') :
    dir.archive locate = dir'.archive locate' ∧ dir.appName locate = dir'.appName locate' := by
  rw [archive, archive, appName, appName, same]
  exact ⟨rfl, rfl⟩

theorem archive_congr {locate' : Locate} {dir : Path} (same : locate dir = locate' dir) :
    dir.archive locate = dir.archive locate' :=
  (called_alike (by rw [named, named, same])).1

theorem named_of_ordinary (ordinary : p.isNameless = false) : p.named locate = .ok p := by
  rw [named, ordinary]
  rfl

theorem name_of_ordinary (ordinary : p.isNameless = false) : p.name ≠ [] ∧ p.name ≠ ".." := by
  rw [isNameless, Bool.or_eq_false_iff, List.isEmpty_eq_false_iff, beq_eq_false_iff_ne] at ordinary
  exact ordinary

theorem withName_inj (some : p.name ≠ []) (some' : q.name ≠ [])
    (same : p.withName (p.name ++ name) = q.withName (q.name ++ name)) : p = q := by
  have names := List.append_cancel_right (child_name same)
  have parents := congrArg parent same
  rw [withName, withName, parent_of_child, parent_of_child] at parents
  rw [← parent_child some, ← parent_child some', names, parents]

end Path

namespace Store

variable {s : Store} {dir archive above : Path} {place : Place} {name : Text}

theorem isName_zip (name : Text) : IsName (name ++ ".zip") where
  named dot := by
    rcases dot with dot | dot
    · simpa using congrArg List.length dot
    · simpa using congrArg List.length dot
  notUp up := by simpa using congrArg List.length up

theorem isStep_zip (isStep : Path.IsStep name) : Path.IsStep (name ++ ".zip") where
  left := (isName_zip name).named
  right slash := by
    rcases List.mem_append.mp slash with inside | behind
    · exact isStep.2 inside
    · exact absurd behind (by decide)

theorem straight_ofPlace (names : ∀ name ∈ place, IsName name) :
    s.straight (ofPlace place) = place := by
  have led (above : Place) : place.foldl stride above = above ++ place := by
    induction place generalizing above with
    | nil => simp
    | cons name rest ih =>
      rw [List.forall_mem_cons] at names
      rw [List.foldl_cons, stride_name names.1, ih names.2, List.append_assoc]
      rfl
  exact led []

theorem straight_names (formed : s.Formed) (proper : dir.Proper)
    (stands : dir.root = .relative → s.node? s.cwd ≠ none) :
    ∀ name ∈ s.straight dir, IsName name ∧ Path.IsStep name := by
  have led (steps : List Text) (proper : ∀ step ∈ steps, Path.IsStep step) (place : Place)
      (before : ∀ name ∈ place, IsName name ∧ Path.IsStep name) :
      ∀ name ∈ steps.foldl stride place, IsName name ∧ Path.IsStep name := by
    induction steps generalizing place with
    | nil => exact before
    | cons step steps ih =>
      rw [List.forall_mem_cons] at proper
      refine ih proper.2 _ fun name member => ?_
      by_cases up : step = ".."
      · rw [up, stride_up] at member
        exact before name (List.dropLast_subset _ member)
      · have isName : IsName step := ⟨proper.1.1, up⟩
        rw [stride_name isName] at member
        rcases List.mem_append.mp member with earlier | last
        · exact before name earlier
        · exact List.mem_singleton.mp last ▸ ⟨isName, proper.1⟩
  refine led dir.parts proper _ fun name member => ?_
  unfold origin at member
  split at member
  · rename_i relative
    have isName := formed.names (stands relative) name member
    exact ⟨isName.toIsName, isName.named, fun slash => (isName.plain _ slash).1 rfl⟩
  · cases member

/-- The path after which things are called: the directory itself, or its place where its last step
    is no name. -/
def spelling (s : Store) (dir : Path) : Path :=
  if dir.isNameless then ofPlace (s.straight dir) else dir

/-- A directory whose last step is no name can be found. -/
def Locatable (s : Store) (dir : Path) : Prop :=
  dir.isNameless → ¬ dir.hasNul ∧ (dir.root = .relative → s.node? s.cwd ≠ none)

theorem locatable_of_leads {node : Node} (leads : s.entry dir = .ok (place, node)) :
    s.Locatable dir := by
  obtain ⟨askable, route⟩ := entry_route leads
  refine fun _ => ⟨askable.noNul, fun relative => ?_⟩
  have start := route.start
  rwa [origin, if_pos relative] at start

theorem named_spelling (linkless : s.Linkless) (locatable : s.Locatable dir) :
    dir.named s.locate = .ok (s.spelling dir) := by
  unfold Path.named spelling
  split
  · rename_i nameless
    obtain ⟨noNul, stands⟩ := locatable nameless
    exact locate_straight linkless noNul stands
  · rfl

theorem spelling_child (formed : s.Formed) (proper : dir.Proper) (locatable : s.Locatable dir)
    (below : (s.spelling dir).parts ≠ []) :
    ∃ above name, s.spelling dir = Path.child above name ∧ above.Proper ∧ Path.IsStep name ∧
      IsName name ∧ s.straight dir = s.straight above ++ [name] := by
  unfold spelling at below ⊢
  split at below
  · rename_i nameless
    have names := straight_names formed proper (locatable nameless).2
    rw [if_pos nameless]
    obtain none | ⟨above, name, split⟩ := List.eq_nil_or_concat (s.straight dir)
    · exact absurd none below
    · rw [List.concat_eq_append] at split
      rw [split] at names ⊢
      have before : ∀ name ∈ above, IsName name ∧ Path.IsStep name :=
        fun name member => names name (List.mem_append_left _ member)
      obtain ⟨isName, isStep⟩ := names name (by simp)
      refine ⟨ofPlace above, name, rfl, fun name member => (before name member).2, isStep, isName,
        ?_⟩
      rw [straight_ofPlace fun name member => (before name member).1]
  · rename_i nameful
    have ordinary := Bool.not_eq_true _ ▸ nameful
    obtain ⟨some, notUp⟩ := Path.name_of_ordinary ordinary
    have split := Path.parent_child some
    have parts : dir.parent.parts ++ [dir.name] = dir.parts := congrArg Path.parts split
    have member : dir.name ∈ dir.parts :=
      parts ▸ List.mem_append_right _ (List.mem_singleton_self _)
    have isName : IsName dir.name := ⟨(proper _ member).1, notUp⟩
    rw [if_neg nameful]
    refine ⟨dir.parent, dir.name, split.symm, proper.parent, proper _ member, isName, ?_⟩
    rw [← straight_child isName, split]

theorem archive_spelling (linkless : s.Linkless) (locatable : s.Locatable dir)
    (called : s.spelling dir = Path.child above name) (isName : IsName name) :
    dir.archive s.locate = .ok (above.child (name ++ ".zip")) := by
  have named := named_spelling linkless locatable
  rw [called] at named
  have some : (above.child name).name ≠ [] := by
    rw [Path.name_child]
    exact fun none => isName.named (.inl none)
  rw [Path.archive_of_named named some, Path.withName, Path.parent_of_child, Path.name_child]

theorem archive_beside (formed : s.Formed) (linkless : s.Linkless) (proper : dir.Proper)
    (leads : s.entry dir = .ok (place, .dir)) (named : dir.archive s.locate = .ok archive) :
    ∃ above name, archive = Path.child above (name ++ ".zip") ∧ above.Proper ∧ Path.IsStep name ∧
      place = s.straight above ++ [name] := by
  have locatable := locatable_of_leads leads
  have below : (s.spelling dir).parts ≠ [] := by
    intro none
    obtain ⟨dir', found, some, -⟩ := Path.archive_named named
    cases (named_spelling linkless locatable).symm.trans found
    simp [Path.name, none] at some
  obtain ⟨above, name, called, proper', isStep, isName, led⟩ :=
    spelling_child formed proper locatable below
  cases (archive_spelling linkless locatable called isName).symm.trans named
  exact ⟨above, name, rfl, proper', isStep, (entry_straight linkless leads).trans led⟩

theorem archive_proper (formed : s.Formed) (linkless : s.Linkless) (proper : dir.Proper)
    (leads : s.entry dir = .ok (place, .dir)) (named : dir.archive s.locate = .ok archive) :
    archive.Proper := by
  obtain ⟨above, name, rfl, proper', isStep, -⟩ :=
    archive_beside formed linkless proper leads named
  exact proper'.child (isStep_zip isStep)

theorem not_prefix_zip (above : Path) (name : Text) :
    ¬ s.straight above ++ [name] <+: s.straight (above.child (name ++ ".zip")) := by
  rw [straight_child (isName_zip name)]
  intro isPrefix
  have same := isPrefix.eq_of_length (by simp)
  simpa using (List.cons.inj (List.append_inj_right' same rfl)).1

theorem archive_outside (formed : s.Formed) (linkless : s.Linkless) (proper : dir.Proper)
    (leads : s.entry dir = .ok (place, .dir)) (named : dir.archive s.locate = .ok archive) :
    ¬ place <+: s.straight archive := by
  obtain ⟨above, name, rfl, -, -, place⟩ := archive_beside formed linkless proper leads named
  rw [place]
  exact not_prefix_zip above name

theorem spelling_ofPlace (names : ∀ name ∈ place, IsName name) :
    s.spelling (ofPlace place) = ofPlace place := by
  unfold spelling
  split
  · rw [straight_ofPlace names]
  · rfl

theorem locatable_ofPlace (names : ∀ name ∈ place, IsName name) : s.Locatable (ofPlace place) := by
  intro nameless
  obtain rfl | ⟨above, name, split⟩ := List.eq_nil_or_concat place
  · exact ⟨by simp [Path.hasNul, ofPlace], Root.noConfusion⟩
  · rw [List.concat_eq_append] at split
    subst split
    obtain ⟨named, notUp⟩ := names name (by simp)
    have called : (ofPlace (above ++ [name])).name = name := (ofPlace above).name_child name
    simp only [Path.isNameless, called, Bool.or_eq_true, List.isEmpty_iff, beq_iff_eq] at nameless
    rcases nameless with none | up
    · exact absurd (.inl none) named
    · exact absurd up notUp

/-- The archive of a directory stands beside it under its name, the application is called after the
    same name, and other spellings of the directory make no difference. -/
theorem archive_appName_agree (formed : s.Formed) (linkless : s.Linkless) (proper : dir.Proper)
    (locatable : s.Locatable dir) :
    ((s.spelling dir).parts ≠ [] → ∃ archive, dir.archive s.locate = .ok archive ∧
      archive.parent = (s.spelling dir).parent ∧
      archive.name = (s.spelling dir).name ++ ".zip" ∧
      ¬ (s.spelling dir).LeadsTo archive ∧ ¬ s.straight dir <+: s.straight archive ∧
      archive.stem = (s.spelling dir).name ∧
      dir.appName s.locate = .ok (Path.appNameOf archive.stem)) ∧
    (dir.isNameless → s.locate dir = .ok (ofPlace (s.straight dir)) ∧
      dir.archive s.locate = (ofPlace (s.straight dir)).archive s.locate ∧
      dir.appName s.locate = (ofPlace (s.straight dir)).appName s.locate) ∧
    ∀ other : Path, dir.isNameless = false → other.isNameless = false → dir ≠ other →
      dir.archive s.locate ≠ other.archive s.locate := by
  have named := named_spelling linkless locatable
  refine ⟨fun below => ?_, fun nameless => ?_, fun other ordinary ordinary' differ same => ?_⟩
  · obtain ⟨above, name, called, -, -, isName, led⟩ :=
      spelling_child formed proper locatable below
    have some : name ≠ [] := fun none => isName.named (.inl none)
    have stem : (above.child (name ++ ".zip")).stem = name := by
      rw [Path.stem, Path.name_child, Path.stemOf_zip some]
    refine ⟨_, archive_spelling linkless locatable called isName, ?_, ?_, ?_, ?_, ?_, ?_⟩
    · rw [called, Path.parent_of_child, Path.parent_of_child]
    · rw [called, Path.name_child, Path.name_child]
    · rw [called]
      rintro ⟨-, isPrefix⟩
      have same := isPrefix.eq_of_length (by simp [Path.child])
      simpa using (List.cons.inj (List.append_inj_right' same rfl)).1
    · rw [led]
      exact not_prefix_zip above name
    · rw [stem, called, Path.name_child]
    · rw [stem, Path.appName_of_named named, called, Path.name_child]
  · obtain ⟨noNul, stands⟩ := locatable nameless
    have names := straight_names formed proper stands
    have found := locate_straight linkless noNul stands
    have places : ∀ name ∈ s.straight dir, IsName name := fun name member => (names name member).1
    have again := named_spelling linkless (locatable_ofPlace (s := s) places)
    rw [spelling_ofPlace places] at again
    rw [spelling, if_pos nameless] at named
    exact ⟨found, Path.called_alike (named.trans again.symm)⟩
  · obtain ⟨some, -⟩ := Path.name_of_ordinary ordinary
    obtain ⟨some', -⟩ := Path.name_of_ordinary ordinary'
    rw [Path.archive_of_named (Path.named_of_ordinary ordinary) some,
      Path.archive_of_named (Path.named_of_ordinary ordinary') some'] at same
    exact differ (Path.withName_inj some some' (Except.ok.inj same))

def workroom : Store := ⟨[(["My Desk"], .dir)], ["My Desk"]⟩

theorem workroom_formed : workroom.Formed :=
  formed_of_entries (List.nodup_singleton _) (by decide) (by simp [workroom, node?])
    (by simp [workroom])

theorem workroom_linkless : workroom.Linkless :=
  linkless_of_entries (by simp [workroom])

theorem archive_appName_agree_of_workroom :
    workroom.Formed ∧ workroom.Linkless ∧ (⟨.relative, ["x", ".."]⟩ : Path).Proper ∧
    workroom.Locatable ⟨.relative, ["x", ".."]⟩ ∧
    (workroom.spelling ⟨.relative, ["x", ".."]⟩).parts ≠ [] ∧
    (∃ archive, (⟨.relative, ["x", ".."]⟩ : Path).archive workroom.locate = .ok archive ∧
      archive.name = "My Desk.zip" ∧
      (⟨.relative, ["x", ".."]⟩ : Path).appName workroom.locate =
        .ok (Path.appNameOf archive.stem)) ∧
    (⟨.relative, ["x", ".."]⟩ : Path).archive workroom.locate =
      (ofPlace ["My Desk"]).archive workroom.locate ∧
    (⟨.relative, ["x"]⟩ : Path).archive workroom.locate ≠
      (⟨.slash, ["x"]⟩ : Path).archive workroom.locate := by
  have proper : (⟨.relative, ["x", ".."]⟩ : Path).Proper ∧ (⟨.relative, ["x"]⟩ : Path).Proper := by
    decide
  have locatable : workroom.Locatable ⟨.relative, ["x", ".."]⟩ :=
    fun _ => ⟨by decide, fun _ => by simp [workroom, node?]⟩
  have locatable' : workroom.Locatable ⟨.relative, ["x"]⟩ :=
    fun nameless => absurd nameless (by decide)
  have below : (workroom.spelling ⟨.relative, ["x", ".."]⟩).parts ≠ [] := by decide
  obtain ⟨beside, spelt, -⟩ :=
    archive_appName_agree workroom_formed workroom_linkless proper.1 locatable
  obtain ⟨archive, named, -, name, -, -, -, called⟩ := beside below
  obtain ⟨-, same, -⟩ := spelt (by decide)
  obtain ⟨-, -, apart⟩ :=
    archive_appName_agree workroom_formed workroom_linkless proper.2 locatable'
  exact ⟨workroom_formed, workroom_linkless, proper.1, locatable, below,
    ⟨archive, named, name, called⟩,
    same, apart _ (by decide) (by decide) (by decide)⟩

end Store

end Unbundle
