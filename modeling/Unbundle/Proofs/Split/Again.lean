import Unbundle.Proofs.Split.Frame
import Unbundle.Proofs.Split.Packing

namespace Unbundle.Store

variable {s s' s₁ s₂ : Store} {input archive : Path} {options : Options} {config : Config}
  {document : Document} {outcome : Outcome} {files : Manifest} {assets : Assets}
  {packings : List (Path × Content)}

theorem Course.of_package [Schema] (course : s.Course input options outcome s')
    (resolved : options.resolve s.locate input = .ok config) (loaded : s.load input = .ok document)
    (asked : config.createZip = true) (made : (s.makeDirs config.outputDir).2 = none)
    (writes : Writes (s.makeDirs config.outputDir).1
      ((config.plan (.ofText document.text config.extractAll)).map encoded) s₁)
    (packed : Task.Ends (package config.outputDir) s₁ (.ok archive) s₂) :
    outcome = .done
      { Manifest.planned (.ofText document.text config.extractAll) config.outputDir with
        archivePath := some archive } ∧ s' = s₂ := by
  cases course with
  | misled refused => simp [resolved] at refused
  | unread _ unread => simp [loaded] at unread
  | unwritten resolved' loaded' emits =>
    obtain rfl := Except.ok.inj (resolved.symm.trans resolved')
    obtain rfl := Except.ok.inj (loaded.symm.trans loaded')
    exact absurd (emits.of_writes made writes).1 nofun
  | written resolved' _ _ unasked =>
    obtain rfl := Except.ok.inj (resolved.symm.trans resolved')
    rw [asked] at unasked
    cases unasked
  | unpacked resolved' loaded' emits _ _ ran =>
    obtain rfl := Except.ok.inj (resolved.symm.trans resolved')
    obtain rfl := Except.ok.inj (loaded.symm.trans loaded')
    obtain ⟨-, rfl⟩ := emits.of_writes made writes
    cases (ran.unique packed).1
  | packed resolved' loaded' emits _ _ ran =>
    obtain rfl := Except.ok.inj (resolved.symm.trans resolved')
    obtain rfl := Except.ok.inj (loaded.symm.trans loaded')
    obtain ⟨planned, rfl⟩ := emits.of_writes made writes
    obtain ⟨same, rfl⟩ := ran.unique packed
    cases planned
    cases same
    exact ⟨rfl, rfl⟩

namespace Delivery

variable (delivery : s.Delivery config assets files packings s')

include delivery

theorem touches : s.Touches s' (·.LeadsTo config.outputDir) (· ∈ files.paths) :=
  ((s.makeDirs_touches config.outputDir).mono (fun _ => id) fun _ => False.elim).trans
    (delivery.writes.touches.mono (fun _ => False.elim) fun _ => delivery.written.mp)

theorem leads : ∃ place, s'.entry config.outputDir = .ok (place, .dir) := by
  obtain ⟨place, leads⟩ := makeDirs_leads delivery.made
  exact ⟨place, delivery.writes.touches.grows.entry_dir leads⟩

theorem apart_from (name : Text) (isName : IsName name) (other : name ∉ Manifest.names)
    (unzipped : ¬ (".zip" : Text) <:+ name) (above : Path) :
    ∀ p ∈ files.paths, Apart (above.child name) p := by
  intro p listed
  rw [delivery.listed, List.mem_append] at listed
  rcases listed with planned | archive
  · obtain ⟨name', named, rfl⟩ := name_of_mem planned
    refine ⟨_, _, _, _, rfl, rfl, isName, isName_of_mem named, ?_⟩
    rintro rfl
    exact other named
  · obtain ⟨s₁, -, named⟩ := delivery.named p (Option.mem_toList.mp archive)
    obtain ⟨beside, base, rfl⟩ := Path.archive_child named
    refine ⟨_, _, _, _, rfl, rfl, isName, isName_zip base, ?_⟩
    rintro rfl
    exact unzipped (List.suffix_append _ _)

theorem load_again (linkless : s.Linkless) (loaded : s.load input = .ok document)
    (apart : ∀ p ∈ files.paths, ¬ s'.Meet input p) : s'.load input = .ok document := by
  obtain ⟨place, content, time, leads, -⟩ := file_of_load loaded
  have leads' := delivery.touches.kept leads (Node.file_solid _ _) apart
  have linkless' := delivery.grows.linkless linkless
  rwa [load_of_file leads' (linkless'.not_loops input), resolved_straight linkless',
    delivery.grows.straight, ← resolved_straight linkless,
    ← load_of_file leads (linkless.not_loops input)]

theorem kept (linkless : s.Linkless) :
    ∀ w ∈ (config.plan assets).map encoded, s'.write w.1 w.2 = .ok s' := by
  have linkless' := (s.makeDirs_touches config.outputDir).grows.linkless linkless
  obtain ⟨s₁, planned, packed⟩ := delivery.writes.split
  have linkless₁ := planned.touches.grows.linkless linkless'
  have apart : ((config.plan assets).map encoded |>.map Prod.fst).Pairwise Apart := by
    rw [encoded_paths]
    exact plan_apart config assets
  have beside : ∀ w ∈ (config.plan assets).map encoded, ∀ q ∈ packings.map Prod.fst,
      Apart w.1 q := by
    intro w member q archive
    have paths := delivery.apart
    rw [delivery.listed, List.pairwise_append] at paths
    refine paths.2.2 w.1 ?_ q (Option.mem_toList.mpr ((delivery.packed q).mp archive))
    exact encoded_paths _ ▸ List.mem_map_of_mem member
  exact fun w member =>
    packed.stays linkless₁ (planned.kept linkless' apart w member) (beside w member)

theorem makeDirs_again (linkless : s.Linkless) :
    s'.makeDirs config.outputDir = (s', none) := by
  obtain ⟨place, leads⟩ := delivery.leads
  exact Store.makeDirs_again (delivery.grows.linkless linkless) leads

end Delivery

theorem plan_proper (proper : config.outputDir.Proper) (assets : Assets) :
    ∀ q ∈ ((config.plan assets).map encoded).map Prod.fst, q.Proper := by
  intro q member
  obtain ⟨name, listed, rfl⟩ := name_of_mem (encoded_paths _ ▸ member)
  have steps : ∀ name ∈ Manifest.names, Path.IsStep name := by
    unfold Path.IsStep
    decide
  exact proper.child (steps name listed)

theorem Course.again [Schema] {outcome' : Outcome} (formed : s.Formed) (linkless : s.Linkless)
    (proper : (options.outputDir.getD input.defaultOutput).Proper)
    (course : s.Course input options (.done files) s')
    (apart : ∀ p ∈ files.paths, ¬ s'.Meet input p)
    (course' : s'.Course input options outcome' s₂) : outcome' = .done files ∧ s₂ = s' := by
  obtain ⟨config, document, packings, resolved, loaded, delivery⟩ := course.delivery
  have output := (Options.resolve_paths resolved).2
  rw [← output] at proper
  have located := locate_grown linkless delivery.made delivery.grows
  have resolved' : options.resolve s'.locate input = .ok config := by
    rw [Options.resolve_congr (output ▸ located), resolved]
  have loaded' := delivery.load_again linkless loaded apart
  have again := delivery.makeDirs_again linkless
  have made' : (s'.makeDirs config.outputDir).2 = none := by rw [again]
  have writes' : Writes (s'.makeDirs config.outputDir).1
      ((config.plan (.ofText document.text config.extractAll)).map encoded) s' := by
    rw [again]
    exact .idle (delivery.kept linkless)
  cases course with
  | written resolved₁ loaded₁ emits unasked =>
    obtain rfl := Except.ok.inj (resolved.symm.trans resolved₁)
    obtain rfl := Except.ok.inj (loaded.symm.trans loaded₁)
    cases emits with
    | written => exact course'.of_writes resolved' loaded' unasked made' writes'
  | @packed _ _ _ archive s₁ _ resolved₁ loaded₁ emits asked _ ran =>
    obtain rfl := Except.ok.inj (resolved.symm.trans resolved₁)
    obtain rfl := Except.ok.inj (loaded.symm.trans loaded₁)
    cases emits with
    | written _ writes =>
      have readied := s.makeDirs_touches config.outputDir
      have formed₁ := writes.formed (formed.makeDirs proper) (plan_proper proper _)
      have linkless₁ := writes.touches.grows.linkless (readied.grows.linkless linkless)
      have packed := package_again formed₁ linkless₁ proper ran
      exact course'.of_package resolved' loaded' asked made' writes' packed

theorem splitFile_again [Schema] (formed : s.Formed) (linkless : s.Linkless) (proper : input.Proper)
    (directed : ∀ dir, options.outputDir = some dir → dir.Proper)
    (done : (s.splitFile input options).1 = .done files)
    (apart : ∀ p ∈ files.paths, ¬ (s.splitFile input options).2.world.Meet input p) :
    ((s.splitFile input options).2.world.splitFile input options).1 = .done files ∧
      ((s.splitFile input options).2.world.splitFile input options).2.world =
        (s.splitFile input options).2.world := by
  have course := s.splitFile_course input options
  rw [done] at course
  have output : (options.outputDir.getD input.defaultOutput).Proper := by
    cases given : options.outputDir with
    | none => exact proper.defaultOutput
    | some dir => exact directed dir given
  exact course.again formed linkless output apart (splitFile_course _ _ _)

section Planned

variable (config) {t : Store} {place : Place} {content : Content} (linkless : t.Linkless)
  (leads : t.entry config.outputDir = .ok (place, .dir))
  (empty : ∀ names, names ≠ [] → t.node? (place ++ names) = none)
  (writes : Writes t ((config.plan assets).map encoded) s)

include linkless leads

theorem straight_planned (name : Text) (member : name ∈ Manifest.names) :
    t.straight (config.outputDir.child name) = place ++ [name] := by
  rw [straight_child (isName_of_mem member), entry_straight linkless leads]

include empty writes

theorem planned_below {names : Place} (below : names ∈ (s.below place).map Prod.fst) :
    ∃ name ∈ Manifest.names, names = [name] ∧
      ∃ content, s.node? (place ++ names) = some (.file content none) := by
  obtain ⟨some, stands⟩ := mem_below_iff.mp below
  rcases writes.changes linkless (place ++ names) with same | ⟨w, member, here, file⟩
  · exact absurd (same.trans (empty names some)) stands
  · obtain ⟨⟨p, t⟩, listed, rfl⟩ := List.mem_map.mp member
    obtain ⟨name, named, rfl⟩ := name_of_mem (List.mem_map_of_mem listed)
    have here := (straight_planned config linkless leads name named).symm.trans here
    exact ⟨name, named, (List.append_cancel_left here).symm, _, file⟩

omit empty in
theorem page_below : [(Skeleton.pageFile : Text)] ∈ (s.below place).map Prod.fst := by
  have planned : (config.outputDir.child Skeleton.pageFile, assets.markup) ∈ config.plan assets :=
    mem_plan.mpr (.inr (.inl ⟨rfl, rfl⟩))
  have grows := writes.touches.grows
  obtain ⟨content, took⟩ := writes.remains (List.mem_map_of_mem (List.mem_map_of_mem planned))
  obtain ⟨node, stands, -⟩ := Took.stands (grows.linkless linkless) took
  have here := straight_planned config linkless leads Skeleton.pageFile (by decide)
  rw [encoded, grows.straight, here] at stands
  exact mem_below_iff.mpr ⟨List.cons_ne_nil _ _, ne_of_eq_of_ne stands (Option.some_ne_none node)⟩

theorem plan_packs (formed : t.Formed) (proper : config.outputDir.Proper)
    (short : ∀ name ∈ Manifest.names, ¬ Overlong config.outputDir [name])
    (named : config.outputDir.archive s.locate = .ok archive)
    (wrote : s.write archive content = .ok s') :
    ∃ s'', Task.Ends (package config.outputDir) s (.ok archive) s'' := by
  have grows := writes.touches.grows
  refine package_fresh (writes.formed formed (plan_proper proper assets)) (grows.linkless linkless)
    proper (grows.entry_dir leads) ?_ (fun names below => ?_) named wrote
  · exact List.ne_nil_of_mem (page_below config linkless leads writes)
  · obtain ⟨name, member, rfl, file⟩ := planned_below config linkless leads empty writes below
    have spelt : ∀ name ∈ Manifest.names, Utf8.stray? (Text.joinWith "/" [name]) = none := by decide
    exact ⟨short name member, spelt name member, file⟩

end Planned

section Zipped

variable (data : List UInt8)

theorem desk_formed : (desk data).Formed := by
  refine formed_of_entries (List.nodup_singleton _) ?_ (by simp [desk, node?]) (by simp [desk])
  have isEntryName : ∀ name ∈ (["p.html"] : Place), IsEntryName name := by decide
  exact fun entry member => List.mem_singleton.mp member ▸ isEntryName

def desk.zipping : Options := { createZip := .bool true }

def desk.zipConfig : Config := { desk.resolved with createZip := true }

def desk.zipPath : Path := ⟨.relative, ["p.zip"]⟩

theorem desk_output_proper : desk.output.Proper := by decide

theorem desk_ready_linkless : (desk.ready data).Linkless := by
  have made := ((desk data).makeDirs_touches desk.output).grows.linkless (desk_linkless data)
  rwa [desk_makeDirs] at made

theorem desk_ready_formed : (desk.ready data).Formed := by
  have made := (desk_formed data).makeDirs desk_output_proper
  rwa [desk_makeDirs] at made

theorem desk_begins
    (writes : Writes (desk.ready data) ((desk.zipConfig.plan assets).map encoded) s) :
    s.write desk.zipPath (.archive []) = .ok (s.put ["p.zip"] (.file (.archive []) none)) := by
  have vacant : s.node? ["p.zip"] = none := by
    rcases writes.changes (desk_ready_linkless data) ["p.zip"] with same | ⟨w, member, here, -⟩
    · exact same
    · obtain ⟨⟨p, t⟩, listed, rfl⟩ := List.mem_map.mp member
      obtain ⟨name, named, rfl⟩ := name_of_mem (List.mem_map_of_mem listed)
      cases (straight_planned desk.zipConfig (desk_ready_linkless data)
        (desk_ready data) name named).symm.trans here
  have start : s.origin desk.zipPath = [] := writes.touches.grows.origin _
  have looked : s.lookup .create desk.zipPath = .ok (.vacant [] "p.zip") := by
    refine lookup_eq_ok_iff.mpr ⟨by decide, ?_⟩
    rw [start]
    exact .free rfl (by decide) vacant
  rw [write, looked]
  rfl

theorem desk_packs
    (writes : Writes (desk.ready data) ((desk.zipConfig.plan assets).map encoded) s) :
    ∃ s', Task.Ends (package desk.output) s (.ok desk.zipPath) s' := by
  have empty : ∀ names : Place, names ≠ [] →
      (desk.ready data).node? ((["p"] : Place) ++ names) = none := by
    intro names some
    obtain ⟨first, rest, rfl⟩ := List.exists_cons_of_ne_nil some
    rfl
  exact plan_packs desk.zipConfig (desk_ready_linkless data) (desk_ready data) empty
    writes (desk_ready_formed data) desk_output_proper (by decide) rfl (desk_begins data writes)

open Coercion in
theorem desk_zips : ((desk data).splitFile desk.page desk.zipping).1 =
    .done { Manifest.planned (.ofText (Utf8.decode data) false) desk.output with
      archivePath := some desk.zipPath } := by
  obtain ⟨s₁, writes⟩ := plan_writes desk.zipConfig (desk_ready data) (desk_open data)
    (.ofText (Utf8.decode data) false)
  obtain ⟨s', packed⟩ := desk_packs data writes
  have resolved : desk.zipping.resolve (desk data).locate desk.page = .ok desk.zipConfig := rfl
  have written : Writes ((desk data).makeDirs desk.output).1
      ((desk.zipConfig.plan (.ofText (Utf8.decode data) false)).map encoded) s₁ := by
    rw [desk_makeDirs]
    exact writes
  exact (((desk data).splitFile_course desk.page desk.zipping).of_package resolved (desk_load data)
    rfl (congrArg Prod.snd (desk_makeDirs data)) written packed).1

end Zipped

open Coercion in
theorem splitFile_again_of_styledDesk : styledDesk.Formed ∧ styledDesk.Linkless ∧
    ∃ files, files.archivePath = some desk.zipPath ∧
      (styledDesk.splitFile desk.page desk.zipping).1 = .done files ∧
      ((styledDesk.splitFile desk.page desk.zipping).2.world.splitFile desk.page desk.zipping).1 =
        .done files ∧
      ((styledDesk.splitFile desk.page desk.zipping).2.world.splitFile desk.page
        desk.zipping).2.world = (styledDesk.splitFile desk.page desk.zipping).2.world := by
  have proper : desk.page.Proper := by
    unfold Path.Proper Path.IsStep
    decide
  have course := styledDesk.splitFile_course desk.page desk.zipping
  rw [show (styledDesk.splitFile desk.page desk.zipping).1 = _ from desk_zips _] at course
  obtain ⟨config, document, packings, -, -, delivery⟩ := course.delivery
  have apart := delivery.apart_from "p.html" ⟨by decide, by decide⟩ (by decide) (by decide)
    ⟨.relative, []⟩
  have linkless := delivery.grows.linkless (desk_linkless _)
  exact ⟨desk_formed _, desk_linkless _, _, rfl, desk_zips _,
    splitFile_again (desk_formed _) (desk_linkless _) proper nofun (desk_zips _)
      fun p listed => (apart p listed).not_meet linkless⟩

end Unbundle.Store
