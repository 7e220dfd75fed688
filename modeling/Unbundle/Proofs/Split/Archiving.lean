import Unbundle.Proofs.Split.Packing
import Unbundle.Proofs.Text.Order

namespace Unbundle.Store

variable {s s' t t' : Store} {p dir archive : Path} {place target names : Place}
  {listed : List Place} {content : Content} {node : Node}

/-- A file below a directory, by the names that lead to it: one that stands there, or that a link
    there leads to. -/
inductive FileBelow (s : Store) (dir : Path) (place names : Place) (content : Content) : Prop
  | here {time : Option Int} (stands : s.node? (place ++ names) = some (.file content time))
  | linked {text : Text} {target : Place} {time : Option Int}
      (link : s.node? (place ++ names) = some (.link text))
      (leads : s.entry (dir.beneath names) = .ok (target, .file content time))

section Listing

theorem holds_eq_error_iff {sort : Node → Bool} {r : Refusal} : s.holds p sort = .error r ↔
    s.entry p = .error (.refused r) ∧ r.cause = .nameTooLong := by
  unfold holds
  constructor
  · intro told
    split at told
    · cases told
    · cases told
    · rename_i refused
      split at told
      · rename_i long
        cases told
        exact ⟨refused, long⟩
      · cases told
  · rintro ⟨refused, long⟩
    rw [refused]
    simp [long]

theorem FileBelow.below (file : FileBelow s dir place names content)
    (leads : s.entry dir = .ok (place, .dir)) : names ∈ (s.below place).map Prod.fst := by
  refine mem_below_iff.mpr ⟨?_, by cases file <;> simp [*]⟩
  rintro rfl
  have dir := entry_node leads
  cases file <;> simp_all

theorem fileBelow_of_entry (formed : s.Formed) (leads : s.entry dir = .ok (place, .dir))
    (below : names ∈ (s.below place).map Prod.fst) {time : Option Int}
    (reached : s.entry (dir.beneath names) = .ok (target, .file content time)) :
    FileBelow s dir place names content := by
  obtain ⟨node, stands⟩ := Option.ne_none_iff_exists'.mp (mem_below_iff.mp below).2
  by_cases link : ∃ text, node = .link text
  · obtain ⟨text, rfl⟩ := link
    exact .linked stands reached
  · have solid : node.IsSolid := fun text same => link ⟨text, same⟩
    rw [formed.entry_beneath leads stands solid] at reached
    split at reached
    · cases reached
    · cases reached
      exact .here stands

theorem fileBelow_iff (formed : s.Formed) (leads : s.entry dir = .ok (place, .dir)) {b : Bool}
    (told : s.isFile (dir.beneath names) = .ok b) : FileBelow s dir place names content ↔
      names ∈ (s.below place).map Prod.fst ∧
        ∃ target time, s.entry (dir.beneath names) = .ok (target, .file content time) := by
  constructor
  · intro file
    refine ⟨file.below leads, ?_⟩
    cases file with
    | linked link reached => exact ⟨_, _, reached⟩
    | here stands =>
      have reached := formed.entry_beneath leads stands (Node.file_solid _ _)
      split at reached
      · rw [isFile, holds, reached] at told
        cases told
      · exact ⟨_, _, reached⟩
  · rintro ⟨below, target, time, reached⟩
    exact fileBelow_of_entry formed leads below reached

def heldAt (s : Store) (p : Path) : Content :=
  match s.entry p with
  | .ok (_, .file content _) => content
  | _ => .bytes []

theorem heldAt_of_leads {time : Option Int} (leads : s.entry p = .ok (target, .file content time)) :
    s.heldAt p = content := by
  rw [heldAt, leads]

theorem fileNames_cases (formed : s.Formed) (dir : Path) (place : Place) :
    (∃ listed, s.fileNames dir place = .ok listed ∧ listed.Pairwise (· < ·) ∧
      (∀ names ∈ (s.below place).map Prod.fst, ∃ b, s.isFile (dir.beneath names) = .ok b) ∧
      ∀ names, names ∈ listed ↔
        names ∈ (s.below place).map Prod.fst ∧ s.isFile (dir.beneath names) = .ok true) ∨
    ∃ names ∈ (s.below place).map Prod.fst, ∃ r, s.isFile (dir.beneath names) = .error r ∧
      s.fileNames dir place = .error r := by
  unfold fileNames
  rcases filterM_cases (s.isPackable dir) ((s.below place).map Prod.fst) with
    ⟨told, filtered⟩ | ⟨names, member, r, failed, stopped⟩
  · rw [filtered]
    have distinct := (formed.below_nodup place).filter
      fun names => (s.isPackable dir names).toOption = some true
    refine .inl ⟨_, rfl, pairwise_lt_mergeSort distinct, told, fun names => ?_⟩
    rw [List.mem_mergeSort, List.mem_filter, decide_eq_true_eq, toOption_eq_some_iff]
    rfl
  · rw [stopped]
    exact .inr ⟨names, member, r, failed, rfl⟩

theorem fileNames_ok (formed : s.Formed) (found : s.fileNames dir place = .ok listed) :
    listed.Pairwise (· < ·) ∧
      (∀ names ∈ (s.below place).map Prod.fst, ∃ b, s.isFile (dir.beneath names) = .ok b) ∧
      ∀ names, names ∈ listed ↔
        names ∈ (s.below place).map Prod.fst ∧ s.isFile (dir.beneath names) = .ok true := by
  rcases fileNames_cases formed dir place with ⟨_, found', all⟩ | ⟨_, _, _, _, refused⟩
  · rwa [Except.ok.inj (found.symm.trans found')]
  · rw [found] at refused
    cases refused

theorem held_of_fileNames (formed : s.Formed) (found : s.fileNames dir place = .ok listed)
    (member : names ∈ listed) : names ∈ (s.below place).map Prod.fst ∧
      ∃ target time,
        s.entry (dir.beneath names) = .ok (target, .file (s.heldAt (dir.beneath names)) time) := by
  obtain ⟨-, -, listed_iff⟩ := fileNames_ok formed found
  obtain ⟨below, isFile⟩ := (listed_iff names).mp member
  obtain ⟨target, content, time, reached⟩ := isFile_eq_true_iff.mp isFile
  exact ⟨below, target, time, by rw [heldAt_of_leads reached, reached]⟩

theorem Formed.joinWith_inj (formed : s.Formed) {names' : Place}
    (below : names ∈ (s.below place).map Prod.fst) (below' : names' ∈ (s.below place).map Prod.fst)
    (same : Text.joinWith "/" names = Text.joinWith "/" names') : names = names' := by
  have cut {names : Place} (below : names ∈ (s.below place).map Prod.fst) :
      Text.splitOn Path.separator (Text.joinWith "/" names) = names := by
    obtain ⟨some, stands⟩ := mem_below_iff.mp below
    refine Text.splitOn_joinWith (fun name member slash => ?_) some
    have isName := formed.names stands name (List.mem_append_right _ member)
    exact (isName.plain _ slash).1 rfl
  rw [← cut below, ← cut below', same]

end Listing

section Filling

theorem memberAt_file {time : Option Int} {member : Content} {name : Text}
    (leads : s.entry p = .ok (place, .file content time)) (read : s.memberAt p name = .ok member) :
    member = content := by
  rw [memberAt, leads] at read
  dsimp only at read
  split at read
  · cases read
  · split at read
    · cases read
    · split at read <;> cases read
      rfl

theorem fill_files {done : List (Text × Content)} {held : Place → Content}
    (took : t.Took archive (.archive done))
    (files : ∀ names ∈ listed, ¬ t.Meet (dir.beneath names) archive ∧
      ∃ place time, t.entry (dir.beneath names) = .ok (place, .file (held names) time))
    (filled : Task.Ends (fill archive dir done listed) t (.ok ()) t') :
    t'.Took archive
      (.archive (done ++ listed.map fun names => (Text.joinWith "/" names, held names))) := by
  -- What holds of the files still to be packed, that they are no archive and what they hold, is
  -- kept when the archive is written for the one before them.
  induction listed generalizing done t with
  | nil =>
    obtain ⟨-, rfl⟩ := filled.unique (Task.ends_pure () t)
    simpa using took
  | cons names rest ih =>
    rw [List.forall_mem_cons] at files
    obtain ⟨⟨apart, place, time, leads⟩, files⟩ := files
    rcases fill_step archive dir done names rest t with halts | ⟨member, t₁, read, wrote⟩
    · exact absurd filled halts.not_ok
    obtain ⟨answer, t₂, -, later, -⟩ := fill_ends archive dir rest
      (done ++ [(Text.joinWith "/" names, member)]) t₁
    obtain ⟨rfl, rfl⟩ := filled.unique (fill_goes read wrote later)
    obtain rfl := memberAt_file leads read
    have packed := ih (write_takes wrote) (fun names' member' => by
      obtain ⟨apart', place', time', leads'⟩ := files names' member'
      have left := write_leaves wrote leads' (Node.file_solid _ _) apart'
      exact ⟨left.2, place', time', left.1⟩) later
    rwa [List.append_assoc] at packed

end Filling

/-- What an archive of a directory is to hold: each file once, under the names that lead to it, in
    the order of these names. -/
structure Lists (s : Store) (dir : Path) (place : Place) (files : List (Place × Content)) :
    Prop where
  complete : ∀ names content, (names, content) ∈ files ↔ FileBelow s dir place names content
  ordered : (files.map Prod.fst).Pairwise (· < ·)
  distinct : (files.map fun file => Text.joinWith "/" file.1).Nodup
  some : files ≠ []

theorem fileNames_lists (formed : s.Formed) (leads : s.entry dir = .ok (place, .dir))
    (found : s.fileNames dir place = .ok listed) (some : listed ≠ []) :
    Lists s dir place (listed.map fun names => (names, s.heldAt (dir.beneath names))) := by
  obtain ⟨ordered, told, listed_iff⟩ := fileNames_ok formed found
  have different : listed.Nodup := by
    refine ordered.imp fun before => ?_
    rintro rfl
    exact List.lt_irrefl _ before
  constructor
  · intro names content
    rw [List.mem_map]
    constructor
    · rintro ⟨_, member, ⟨⟩⟩
      obtain ⟨below, target, time, reached⟩ := held_of_fileNames formed found member
      exact fileBelow_of_entry formed leads below reached
    · intro file
      have below := file.below leads
      obtain ⟨b, answer⟩ := told names below
      obtain ⟨-, target, time, reached⟩ := (fileBelow_iff formed leads answer).mp file
      refine ⟨names, (listed_iff names).mpr ⟨below, ?_⟩, by rw [heldAt_of_leads reached]⟩
      exact isFile_eq_true_iff.mpr ⟨target, content, time, reached⟩
  · rw [List.map_map]
    exact (List.map_id listed).symm ▸ ordered
  · rw [List.map_map]
    refine different.map_on fun names member names' member' same => ?_
    exact formed.joinWith_inj ((listed_iff _).mp member).1 ((listed_iff _).mp member').1 same
  · simpa using some

/-- A path that cannot be followed for its length. -/
def TooLong (s : Store) (p : Path) : Prop :=
  ∃ r, s.entry p = .error (.refused r) ∧ r.cause = .nameTooLong

theorem isDir_false (no : s.isDir dir = .ok false) (place : Place) :
    s.entry dir ≠ .ok (place, .dir) := by
  intro leads
  rw [isDir_of_leads leads] at no
  cases no

theorem title_of_tooLong {r : Refusal} (long : r.cause = .nameTooLong) :
    (Failure.refused r).title ≠ "PackagingError" := by
  have other : Cause.nameTooLong.title ≠ "PackagingError" := by decide
  rwa [← long] at other

theorem tooLong_of_isFile {r : Refusal} (refused : s.isFile p = .error r) :
    s.TooLong p ∧ r.cause = .nameTooLong :=
  ⟨⟨r, holds_eq_error_iff.mp refused⟩, (holds_eq_error_iff.mp refused).2⟩

theorem not_tooLong_of_isFile {b : Bool} (told : s.isFile p = .ok b) : ¬ s.TooLong p := by
  rintro ⟨r, refused⟩
  rw [isFile, holds_eq_error_iff.mpr refused] at told
  cases told

/-- A directory that cannot be gone through, as it or something below it is spelt too long. -/
def Impassable (s : Store) (dir : Path) : Prop :=
  s.TooLong dir ∨ ∃ place, s.entry dir = .ok (place, .dir) ∧
    ∃ names ∈ (s.below place).map Prod.fst, s.TooLong (dir.beneath names)

theorem passable_of_not_isDir (isDir : s.isDir dir = .ok false) : ¬ s.Impassable dir := by
  rintro (⟨r, refused⟩ | ⟨place, leads, -⟩)
  · rw [Store.isDir, holds_eq_error_iff.mpr refused] at isDir
    cases isDir
  · exact isDir_false isDir place leads

theorem passable_of_isFile (leads : s.entry dir = .ok (place, .dir))
    (told : ∀ names ∈ (s.below place).map Prod.fst, ∃ b, s.isFile (dir.beneath names) = .ok b) :
    ¬ s.Impassable dir := by
  rintro (⟨r, refused, -⟩ | ⟨place', leads', names, below, long⟩)
  · rw [leads] at refused
    cases refused
  · rw [leads] at leads'
    cases leads'
    obtain ⟨b, answer⟩ := told names below
    exact not_tooLong_of_isFile answer long

/-- Where there is no file to pack, that is told, unless something is spelt too long. -/
theorem collect_none (formed : s.Formed)
    (none : ∀ place names content, s.entry dir = .ok (place, .dir) →
      ¬ FileBelow s dir place names content) :
    ∃ f, s.collect dir = .error f ∧ (f.title = "PackagingError" ↔ ¬ s.Impassable dir) := by
  cases isDir : s.isDir dir with
  | error r =>
    obtain ⟨refused, long⟩ := holds_eq_error_iff.mp isDir
    have impassable : s.Impassable dir := .inl ⟨r, refused, long⟩
    refine ⟨.refused r, by rw [collect, isDir], ?_⟩
    exact iff_of_false (title_of_tooLong long) (not_not_intro impassable)
  | ok standing =>
    cases standing with
    | false =>
      refine ⟨.noOutput dir, by rw [collect, isDir], ?_⟩
      exact iff_of_true rfl (passable_of_not_isDir isDir)
    | true =>
      obtain ⟨place, leads⟩ := isDir_leads isDir
      rcases fileNames_cases formed dir place with
        ⟨listed, found, -, told, listed_iff⟩ | ⟨names, below, r, failed, refused⟩
      · have empty : listed = [] := by
          refine List.eq_nil_iff_forall_not_mem.mpr fun names member => ?_
          obtain ⟨below, isFile⟩ := (listed_iff names).mp member
          obtain ⟨target, content, time, reached⟩ := isFile_eq_true_iff.mp isFile
          exact none place names content leads (fileBelow_of_entry formed leads below reached)
        refine ⟨.nothingToPack dir, by simp only [collect, isDir, leads, found, empty], ?_⟩
        exact iff_of_true rfl (passable_of_isFile leads told)
      · obtain ⟨tooLong, long⟩ := tooLong_of_isFile failed
        have impassable : s.Impassable dir := .inr ⟨place, leads, names, below, tooLong⟩
        refine ⟨.refused r, by simp only [collect, isDir, leads, refused], ?_⟩
        exact iff_of_false (title_of_tooLong long) (not_not_intro impassable)

theorem package_refused {f : Failure} (refused : s.collect dir = .error f) :
    Task.Ends (package dir) s (.error f) s :=
  (Task.ends_world s).bind (Task.ends_ofExcept refused s).halt

section Shelf

def shelf : Store := ⟨[(["p"], .dir), (["p", "x"], .file (.bytes [88]) none)], []⟩

def shelfArchive : Path := ⟨.relative, ["p.zip"]⟩

theorem shelf_formed : shelf.Formed :=
  formed_of_entries (by decide) (by decide) (by simp [shelf, node?]) (by simp [shelf])

theorem shelf_dir : shelf.entry desk.output = .ok (["p"], .dir) :=
  entry_name (by decide) rfl rfl (by decide) rfl Node.dir_solid

theorem shelf_vacant (ending : Ending) :
    shelf.lookup ending shelfArchive = .ok (.vacant [] "p.zip") :=
  lookup_free (by decide) rfl rfl ⟨by decide, by decide, by simp, by decide⟩ rfl

theorem shelf_writes (content : Content) : shelf.write shelfArchive content =
    .ok (shelf.put ["p.zip"] (.file content none)) := by
  rw [write, shelf_vacant]
  rfl

theorem shelf_apart (names : Place) : ¬ shelf.Meet (desk.output.beneath names) shelfArchive := by
  rintro ⟨place, node, -, archived⟩
  rw [entry_eq_ok_iff, shelf_vacant] at archived
  cases archived

theorem shelf_packs :
    ∃ s', Task.Ends (package desk.output) shelf (.ok shelfArchive) s' := by
  have linkless : shelf.Linkless := by
    refine linkless_of_entries fun entry member text => ?_
    simp only [shelf, List.mem_cons, List.not_mem_nil, or_false] at member
    rcases member with rfl | rfl <;> exact Node.noConfusion
  have proper : desk.output.Proper := by decide
  have below : (shelf.below ["p"]).map Prod.fst = [(["x"] : Place)] := by decide
  have holding : (shelf.below ["p"]).map Prod.fst ≠ [] := below ▸ List.cons_ne_nil _ _
  refine package_fresh shelf_formed linkless proper shelf_dir holding ?_ rfl
    (shelf_writes (.archive []))
  intro names member
  rw [below] at member
  rw [List.mem_singleton.mp member]
  exact ⟨by decide, by decide, .bytes [88], rfl⟩

end Shelf

/-- What packing makes of a directory: an archive of the files below it, or a failure that changes
    nothing where there is none. -/
theorem package_archives (formed : s.Formed) (dir : Path) :
    (∀ archive s', Task.Ends (package dir) s (.ok archive) s' →
      ∃ place, s.entry dir = .ok (place, .dir) ∧
        ((∀ names content, FileBelow s dir place names content →
          ¬ s.Meet (dir.beneath names) archive) →
        ∃ files, Lists s dir place files ∧ s'.Took archive
          (.archive (files.map fun file => (Text.joinWith "/" file.1, file.2))))) ∧
    ((∀ place names content, s.entry dir = .ok (place, .dir) →
        ¬ FileBelow s dir place names content) →
      ∃ f, Task.Ends (package dir) s (.error f) s ∧
        (f.title = "PackagingError" ↔ ¬ s.Impassable dir)) := by
  constructor
  · intro archive s' packed
    obtain ⟨listed, s₁, collected, named, wrote, filled⟩ := package_eq_ok_iff.mp packed
    obtain ⟨place, leads, found, some⟩ := collect_eq_ok_iff.mp collected
    refine ⟨place, leads, fun apart => ?_⟩
    have lists := fileNames_lists formed leads found some
    refine ⟨_, lists, ?_⟩
    have files : ∀ names ∈ listed, ¬ s₁.Meet (dir.beneath names) archive ∧
        ∃ target time, s₁.entry (dir.beneath names) =
          .ok (target, .file (s.heldAt (dir.beneath names)) time) := by
      intro names member
      obtain ⟨-, target, time, reached⟩ := held_of_fileNames formed found member
      have file := (lists.complete names _).mp (List.mem_map_of_mem member)
      obtain ⟨reached', apart'⟩ :=
        write_leaves wrote reached (Node.file_solid _ _) (apart names _ file)
      exact ⟨apart', target, time, reached'⟩
    have packed := fill_files (write_takes wrote) files filled
    rw [List.map_map]
    exact packed
  · intro none
    obtain ⟨f, refused, title⟩ := collect_none formed none
    exact ⟨f, package_refused refused, title⟩

theorem package_archives_of_shelf : shelf.Formed ∧
    (∃ s', Task.Ends (package desk.output) shelf (.ok shelfArchive) s' ∧
      ∃ place, shelf.entry desk.output = .ok (place, .dir) ∧
        ∃ files, Lists shelf desk.output place files ∧ s'.Took shelfArchive
          (.archive (files.map fun file => (Text.joinWith "/" file.1, file.2)))) ∧
    ∃ f, Task.Ends (package desk.page) shelf (.error f) shelf ∧
      (f.title = "PackagingError" ↔ ¬ shelf.Impassable desk.page) := by
  obtain ⟨s', packed⟩ := shelf_packs
  obtain ⟨place, leads, archives⟩ :=
    (package_archives shelf_formed desk.output).1 shelfArchive s' packed
  have missing : shelf.lookup .followLink desk.page = .ok (.vacant [] "p.html") := by
    refine lookup_eq_ok_iff.mpr ⟨⟨by decide, by decide⟩, ?_⟩
    exact .free rfl ⟨by decide, by decide, by simp, by decide⟩ rfl
  refine ⟨shelf_formed, ⟨s', packed, place, leads, archives fun names _ _ => shelf_apart names⟩, ?_⟩
  refine (package_archives shelf_formed desk.page).2 fun place names content leads => ?_
  rw [entry_eq_ok_iff, missing] at leads
  cases leads

def longName : Text := List.replicate 256 (.scalar 'n')

def longPath : Path := ⟨.relative, [longName]⟩

theorem longName_size : (Utf8.encode longName).length = 256 := by
  have encoded (n : Nat) : Utf8.encode (List.replicate n (.scalar 'n')) =
      List.replicate n 110 := by
    induction n with
    | zero => rfl
    | succ n ih =>
      rw [List.replicate_succ, List.replicate_succ, ← ih]
      rfl
  rw [longName, encoded, List.length_replicate]

theorem shelf_longPath : shelf.entry longPath = .error (refusal .nameTooLong longPath) := by
  have other {x : Sym} (differ : x ≠ .scalar 'n') : x ∉ longName :=
    fun member => differ (List.mem_replicate.mp member).2
  have undotted : .scalar '.' ∉ longName := other (by decide)
  have isName : IsName longName := by
    refine ⟨?_, fun up => undotted (by rw [up]; decide)⟩
    rintro (none | dot)
    · exact List.cons_ne_nil _ _ none
    · exact undotted (by rw [dot]; decide)
  have noNul : ¬ longPath.hasNul := by
    intro nul
    obtain ⟨step, member, nul⟩ := List.any_eq_true.mp nul
    rw [List.mem_singleton.mp member] at nul
    exact other (by decide) (List.contains_iff_mem.mp nul)
  have short : ¬ pathLimit ≤ (Utf8.encode longPath.toText).length := by
    have text : longPath.toText = longName := List.append_nil _
    rw [text, longName_size]
    decide
  have walked : shelf.walk .followLink linkLimit (shelf.origin longPath) longPath.parts =
      .error .nameTooLong := by
    refine walk_long rfl isName ?_
    rw [longName_size]
    decide
  rw [entry, lookup, if_neg noNul, if_neg short, walked]
  rfl

/-- A directory is not told to be missing if its name is too long to look for it. -/
theorem package_misses_longPath : shelf.Formed ∧
    (∀ place, shelf.entry longPath ≠ .ok (place, .dir)) ∧
    ∃ f, Task.Ends (package longPath) shelf (.error f) shelf ∧ f.title = "OSError" := by
  have refused := shelf_longPath
  have missing : ∀ place, shelf.entry longPath ≠ .ok (place, .dir) := by
    intro place leads
    rw [refused] at leads
    cases leads
  have collected : shelf.collect longPath =
      .error (.refused ⟨.nameTooLong, some longPath.toText⟩) := by
    rw [collect, isDir, holds, refused]
    rfl
  exact ⟨shelf_formed, missing, _, package_refused collected, rfl⟩

end Unbundle.Store
