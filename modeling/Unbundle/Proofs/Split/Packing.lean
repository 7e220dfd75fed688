import Unbundle.Proofs.Split.Delivery
import Unbundle.Proofs.Store.Beneath
import Unbundle.Proofs.Store.Overwriting

namespace Unbundle

section Filter

variable {ε α : Type} {p q : α → Except ε Bool} {xs : List α}

theorem filterM_ok (told : ∀ x ∈ xs, ∃ b, p x = .ok b) :
    xs.filterM p = .ok (xs.filter fun x => (p x).toOption = some true) := by
  have filtered (done : List α) : xs.filterAuxM p done =
      .ok ((xs.filter fun x => (p x).toOption = some true).reverse ++ done) := by
    induction xs generalizing done with
    | nil => rfl
    | cons x rest ih =>
      rw [List.forall_mem_cons] at told
      obtain ⟨b, here⟩ := told.1
      rw [List.filterAuxM, here]
      cases b <;> simp [bind, Except.bind, ih told.2, here, Except.toOption]
  rw [List.filterM, filtered]
  simp [bind, Except.bind, pure, Except.pure]

theorem filterM_error (failed : ∃ x ∈ xs, ∃ e, p x = .error e) :
    ∃ x ∈ xs, ∃ e, p x = .error e ∧ xs.filterM p = .error e := by
  have stopped (done : List α) : ∃ x ∈ xs, ∃ e, p x = .error e ∧
      xs.filterAuxM p done = .error e := by
    induction xs generalizing done with
    | nil => simp at failed
    | cons x rest ih =>
      cases here : p x with
      | error e => exact ⟨x, List.mem_cons_self, e, here, by rw [List.filterAuxM, here]; rfl⟩
      | ok b =>
        have later : ∃ y ∈ rest, ∃ e, p y = .error e := by simpa [here] using failed
        obtain ⟨y, member, e, failed, stopped⟩ := ih later (cond b (x :: done) done)
        refine ⟨y, List.mem_cons_of_mem x member, e, failed, ?_⟩
        rw [List.filterAuxM, here]
        exact stopped
  obtain ⟨x, member, e, failed, stopped⟩ := stopped []
  refine ⟨x, member, e, failed, ?_⟩
  rw [List.filterM, stopped]
  rfl

theorem filterM_cases (p : α → Except ε Bool) (xs : List α) :
    ((∀ x ∈ xs, ∃ b, p x = .ok b) ∧
      xs.filterM p = .ok (xs.filter fun x => (p x).toOption = some true)) ∨
    ∃ x ∈ xs, ∃ e, p x = .error e ∧ xs.filterM p = .error e := by
  by_cases failed : ∃ x ∈ xs, ∃ e, p x = .error e
  · exact .inr (filterM_error failed)
  · have told : ∀ x ∈ xs, ∃ b, p x = .ok b := by
      intro x member
      cases here : p x with
      | ok b => exact ⟨b, rfl⟩
      | error e => exact absurd ⟨x, member, e, here⟩ failed
    exact .inl ⟨told, filterM_ok told⟩

theorem toOption_eq_some_iff {answer : Except ε α} {a : α} :
    answer.toOption = some a ↔ answer = .ok a := by
  cases answer <;> simp [Except.toOption]

theorem filterM_congr (same : ∀ x ∈ xs, p x = q x) : xs.filterM p = xs.filterM q := by
  have same (done : List α) : xs.filterAuxM p done = xs.filterAuxM q done := by
    induction xs generalizing done with
    | nil => rfl
    | cons x rest ih =>
      rw [List.forall_mem_cons] at same
      simp only [List.filterAuxM, same.1, ih same.2]
  simp only [List.filterM, same]

end Filter

namespace Store

variable {s s' t t' : Store} {p dir archive : Path} {place : Place} {names : Place}
  {listed : List Place} {content : Content} {node : Node}

section Collecting

theorem isDir_of_leads (leads : s.entry dir = .ok (place, .dir)) : s.isDir dir = .ok true := by
  rw [isDir, holds, leads]

theorem isFile_eq_true_iff : s.isFile p = .ok true ↔
    ∃ place content time, s.entry p = .ok (place, .file content time) := by
  unfold isFile holds
  constructor
  · intro told
    split at told
    · rename_i place node leads
      cases node with
      | file content time => exact ⟨place, content, time, leads⟩
      | dir | link | device => simp at told
    · cases told
    · split at told <;> cases told
  · rintro ⟨place, content, time, leads⟩
    rw [leads]

theorem collect_eq_ok_iff : s.collect dir = .ok listed ↔ ∃ place,
    s.entry dir = .ok (place, .dir) ∧ s.fileNames dir place = .ok listed ∧ listed ≠ [] := by
  constructor
  · intro collected
    unfold collect at collected
    split at collected
    · cases collected
    · cases collected
    · rename_i stands
      obtain ⟨place, leads⟩ := isDir_leads stands
      rw [leads] at collected
      refine ⟨place, leads, ?_⟩
      cases found : s.fileNames dir place with
      | error r =>
        simp only [found] at collected
        cases collected
      | ok names =>
        simp only [found] at collected
        cases names <;> cases collected
        exact ⟨rfl, List.cons_ne_nil _ _⟩
  · rintro ⟨place, leads, found, some⟩
    unfold collect
    rw [isDir_of_leads leads]
    simp only [leads, found]

theorem fileNames_all
    (packable : ∀ names ∈ (s.below place).map Prod.fst, s.isPackable dir names = .ok true) :
    s.fileNames dir place = .ok (((s.below place).map Prod.fst).mergeSort fun a b => a ≤ b) := by
  have all : ((s.below place).map Prod.fst).filter
      (fun names => (s.isPackable dir names).toOption = some true) =
        (s.below place).map Prod.fst := by
    apply List.filter_eq_self.mpr
    intro names below
    simp [packable names below, Except.toOption]
  rw [fileNames, filterM_ok fun names below => ⟨true, packable names below⟩, all]
  rfl

/-- From the directory down two stores have the same entries, in the same order. -/
structure SameBelow (s t : Store) (place : Place) : Prop where
  nodes : ∀ names, t.node? (place ++ names) = s.node? (place ++ names)
  listed : (t.below place).map Prod.fst = (s.below place).map Prod.fst

theorem SameBelow.refl (s : Store) (place : Place) : SameBelow s s place := ⟨fun _ => rfl, rfl⟩

theorem SameBelow.trans {u : Store} (first : SameBelow s t place) (second : SameBelow t u place) :
    SameBelow s u place where
  nodes names := (second.nodes names).trans (first.nodes names)
  listed := second.listed.trans first.listed

theorem SameBelow.put {other : Place} (s : Store) (node : Node) (beside : ¬ place <+: other)
    (below : other ≠ []) : SameBelow s (s.put other node) place where
  nodes names := by
    rw [node?_put _ _ _ _ below, if_neg]
    rintro rfl
    exact beside (List.prefix_append _ _)
  listed := by
    have outside : place.since other = none := by
      refine Option.eq_none_iff_forall_ne_some.mpr fun names led => beside ?_
      rw [(Place.since_eq_some_iff.mp led).2]
      exact List.prefix_append _ _
    rw [keys_below, keys_below, keys_put]
    split
    · rfl
    · simp [outside]

theorem SameBelow.write (linkless : s.Linkless) (wrote : s.write p content = .ok t)
    (beside : ¬ place <+: s.straight p) : SameBelow s t place := by
  obtain ⟨target, looked, ⟨rfl, becomes⟩ | ⟨rfl, -⟩⟩ := write_cases wrote
  · have below := Target.below becomes Node.noConfusion
    exact .put s _ (lookup_straight linkless looked ▸ beside) below
  · exact .refl _ _

theorem SameBelow.writes {contents : List Content} (linkless : s.Linkless)
    (writes : Writes s (contents.map (p, ·)) t) (beside : ¬ place <+: s.straight p) :
    SameBelow s t place := by
  generalize packings : contents.map (p, ·) = ws at writes
  induction writes generalizing contents with
  | nil => exact .refl _ _
  | cons wrote later ih =>
    cases contents with
    | nil => cases packings
    | cons content contents =>
      cases packings
      have grows := (write_touches wrote).grows
      have beside' := (grows.straight p).symm ▸ beside
      exact (SameBelow.write linkless wrote beside).trans
        (ih (grows.linkless linkless) beside' rfl)

theorem SameBelow.collect (same : SameBelow s t place) (formed : s.Formed) (formed' : t.Formed)
    (linkless : s.Linkless) (leads : s.entry dir = .ok (place, .dir))
    (leads' : t.entry dir = .ok (place, .dir)) : t.collect dir = s.collect dir := by
  have packable : ∀ names ∈ (s.below place).map Prod.fst,
      t.isPackable dir names = s.isPackable dir names := by
    intro names member
    obtain ⟨node, stands⟩ := Option.ne_none_iff_exists'.mp (mem_below_iff.mp member).2
    have solid : node.IsSolid := fun text link => linkless _ text (link ▸ stands)
    have entry := formed.entry_beneath leads stands solid
    have entry' := formed'.entry_beneath leads' ((same.nodes names).trans stands) solid
    have isFile : t.isFile (dir.beneath names) = s.isFile (dir.beneath names) := by
      rw [Store.isFile, Store.isFile, holds, holds, entry, entry']
    exact isFile
  have files : t.fileNames dir place = s.fileNames dir place := by
    rw [fileNames, fileNames, same.listed, filterM_congr packable]
  rw [Store.collect, Store.collect, isDir_of_leads leads, isDir_of_leads leads', leads, leads']
  simp only [files]

end Collecting

theorem package_again (formed : s.Formed) (linkless : s.Linkless) (proper : dir.Proper)
    (packed : Task.Ends (package dir) s (.ok archive) s') :
    Task.Ends (package dir) s' (.ok archive) s' := by
  obtain ⟨listed, s₁, collected, named, wrote, filled⟩ := package_eq_ok_iff.mp packed
  obtain ⟨place, leads, -⟩ := collect_eq_ok_iff.mp collected
  obtain ⟨contents, writes⟩ := package_writes packed
  have leads' := writes.touches.grows.entry_dir leads
  have proper' := archive_proper formed linkless proper leads named
  have formed' := writes.formed formed (by simp [proper'])
  have same := SameBelow.writes linkless writes
    (archive_outside formed linkless proper leads named)
  have linkless' := writes.touches.grows.linkless linkless
  have located : s'.locate dir = s.locate dir := by
    rw [locate_place linkless leads, locate_place linkless' leads']
  refine package_eq_ok_iff.mpr ⟨listed, s₁, ?_, ?_, ?_, filled⟩
  · rw [same.collect formed formed' linkless leads leads', collected]
  · rw [Path.archive_congr located, named]
  · rw [writes.overwritten, wrote]

section Filling

theorem write_leaves (wrote : t.write archive content = .ok t')
    (leads : t.entry p = .ok (place, node)) (solid : node.IsSolid) (apart : ¬ t.Meet p archive) :
    t'.entry p = .ok (place, node) ∧ ¬ t'.Meet p archive := by
  obtain ⟨target, looked, ⟨rfl, becomes⟩ | ⟨rfl, -⟩⟩ := write_cases wrote
  · have below := Target.below becomes Node.noConfusion
    have differ : place ≠ target.place := by
      rintro rfl
      have reached := (Grows.refl t).lookup looked (entry_node leads) solid
      exact apart ⟨_, _, leads, reached⟩
    have same : (t.put target.place (.file content none)).node? place = some node := by
      rw [node?_put _ _ _ _ below, if_neg differ, entry_node leads]
    have leads' := (grows_put below becomes).entry_same leads solid same
    refine ⟨leads', ?_⟩
    rintro ⟨place', node', there, archived⟩
    rw [entry_put looked below becomes (Node.file_solid _ _)] at archived
    rw [leads'] at there
    cases there
    cases archived
    exact differ rfl
  · exact ⟨leads, apart⟩

theorem fill_fresh {done : List (Text × Content)}
    (spelt : ∀ names ∈ listed, Utf8.stray? (Text.joinWith "/" names) = none)
    (files : ∀ names ∈ listed, ¬ t.Meet (dir.beneath names) archive ∧
      ∃ target content, t.entry (dir.beneath names) = .ok (target, .file content none))
    (wrote : t.write archive content = .ok s) :
    ∃ t', Task.Ends (fill archive dir done listed) t (.ok ()) t' := by
  induction listed generalizing done t with
  | nil => exact ⟨t, Task.ends_pure () t⟩
  | cons names rest ih =>
    rw [List.forall_mem_cons] at files spelt
    obtain ⟨⟨apart, target, member, leads⟩, files⟩ := files
    have read : t.memberAt (dir.beneath names) (Text.joinWith "/" names) = .ok member := by
      rw [memberAt, leads, spelt.1]
      rfl
    obtain ⟨t₁, added⟩ := write_any wrote (.archive (done ++ [(Text.joinWith "/" names, member)]))
    have wrote₁ := (write_over added content).trans wrote
    obtain ⟨t', later⟩ := ih spelt.2 (fun names' member' => by
      obtain ⟨apart', target', content', leads'⟩ := files names' member'
      have left := write_leaves added leads' (Node.file_solid _ _) apart'
      exact ⟨left.2, target', content', left.1⟩) wrote₁
    exact ⟨t', fill_goes read added later⟩

theorem package_fresh (formed : s.Formed) (linkless : s.Linkless) (proper : dir.Proper)
    (leads : s.entry dir = .ok (place, .dir)) (holding : (s.below place).map Prod.fst ≠ [])
    (fresh : ∀ names ∈ (s.below place).map Prod.fst, ¬ Overlong dir names ∧
      Utf8.stray? (Text.joinWith "/" names) = none ∧
      ∃ content, s.node? (place ++ names) = some (.file content none))
    (named : dir.archive s.locate = .ok archive) (wrote : s.write archive content = .ok t) :
    ∃ s', Task.Ends (package dir) s (.ok archive) s' := by
  have entries : ∀ names ∈ (s.below place).map Prod.fst, ∃ content,
      s.entry (dir.beneath names) = .ok (place ++ names, .file content none) := by
    intro names below
    obtain ⟨short, -, content, stands⟩ := fresh names below
    exact ⟨content, (formed.entry_beneath leads stands (Node.file_solid _ _)).trans (if_neg short)⟩
  have packable : ∀ names ∈ (s.below place).map Prod.fst, s.isPackable dir names = .ok true := by
    intro names below
    obtain ⟨content, reached⟩ := entries names below
    exact isFile_eq_true_iff.mpr ⟨_, content, none, reached⟩
  have apart : ∀ names ∈ (s.below place).map Prod.fst, ¬ s.Meet (dir.beneath names) archive := by
    rintro names below ⟨target, node, reached, archived⟩
    obtain ⟨content, reached'⟩ := entries names below
    rw [reached'] at reached
    cases reached
    refine archive_outside formed linkless proper leads named ?_
    rw [← entry_straight linkless archived]
    exact List.prefix_append _ _
  have listing : (((s.below place).map Prod.fst).mergeSort fun a b => a ≤ b) ≠ [] := by
    simpa [← List.length_eq_zero_iff] using holding
  have collected := collect_eq_ok_iff.mpr ⟨place, leads, fileNames_all packable, listing⟩
  obtain ⟨s₁, begun⟩ := write_any wrote (.archive [])
  have files : ∀ names ∈ ((s.below place).map Prod.fst).mergeSort fun a b => a ≤ b,
      ¬ s₁.Meet (dir.beneath names) archive ∧ ∃ target content,
        s₁.entry (dir.beneath names) = .ok (target, .file content none) := by
    intro names member
    have below := List.mem_mergeSort.mp member
    obtain ⟨content, reached⟩ := entries names below
    have left := write_leaves begun reached (Node.file_solid _ _) (apart names below)
    exact ⟨left.2, _, content, left.1⟩
  have spelt : ∀ names ∈ ((s.below place).map Prod.fst).mergeSort fun a b => a ≤ b,
      Utf8.stray? (Text.joinWith "/" names) = none :=
    fun names member => (fresh names (List.mem_mergeSort.mp member)).2.1
  obtain ⟨s', filled⟩ := fill_fresh spelt files ((write_over begun content).trans wrote)
  exact ⟨s', package_goes collected named begun filled⟩

end Filling

end Store

end Unbundle
