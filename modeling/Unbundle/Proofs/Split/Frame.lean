import Unbundle.Proofs.Split.Delivery

namespace Unbundle.Store

variable {s s₁ s' : Store} {input : Path} {options : Options} {outcome : Outcome}

theorem Course.unchanged [Schema] (course : s.Course input options outcome s')
    (early : outcome.answer.failedStage = some .validating) : s' = s := by
  cases course with
  | misled | unread => rfl
  | unwritten | unpacked | written | packed => cases early

theorem Course.not_extracting [Schema] (course : s.Course input options outcome s') :
    outcome.answer.failedStage ≠ some .extracting := by
  cases course <;> exact nofun

theorem splitFile_checks_first [Schema] (s : Store) (input : Path) (options : Options) :
    ((s.splitFile input options).1.answer.failedStage = some .validating →
      (s.splitFile input options).2.world = s) ∧
    (s.splitFile input options).1.answer.failedStage ≠ some .extracting ∧
    ∀ all, (s.inspectFile input all).2.world = s :=
  ⟨(s.splitFile_course input options).unchanged,
    (s.splitFile_course input options).not_extracting,
    fun all => (s.inspectFile_eq input all).2⟩

def looped : Store := ⟨[(["p.html"], .link ".")], []⟩

open Coercion in
theorem splitFile_checks_first_of_looped :
    (looped.splitFile desk.page {}).1.answer.failedStage = some .validating ∧
      (looped.splitFile desk.page {}).2.world = looped := by
  have leads : looped.entry desk.page = .ok ([], .dir) := by
    refine entry_eq_ok_iff.mpr (lookup_eq_ok_iff.mpr ⟨⟨by decide, by decide⟩, ?_⟩)
    exact .follow rfl ⟨by decide, by decide, by decide, by decide⟩ rfl (by decide)
      (.stay rfl (by decide) (.here rfl))
  have unread : looped.load desk.page = .error (.isDirectory desk.page) := by
    rw [load, validate, leads]
    rfl
  have resolved : ({} : Options).resolve looped.locate desk.page = .ok desk.resolved := rfl
  have failed : (looped.splitFile desk.page {}).1.answer.failedStage = some .validating := by
    rw [(looped.splitFile_course _ _).of_unread resolved unread]
    rfl
  exact ⟨failed, (splitFile_checks_first looped _ _).1 failed⟩

section Output

/-- The files that a split may make or change. -/
def Output (s : Store) (config : Config) (p : Path) : Prop :=
  (∃ name ∈ Manifest.names, p = config.outputDir.child name) ∨
    config.createZip = true ∧ config.outputDir.archive s.locate = .ok p

theorem locate_grown {dir : Path} (linkless : s.Linkless) (made : (s.makeDirs dir).2 = none)
    (grows : s.Grows s₁) : s₁.locate dir = s.locate dir := by
  -- It has to be found for both stores: the path holds no NUL, and what it starts from was there
  -- before.
  obtain ⟨place, leads⟩ := makeDirs_leads made
  have noNul : ¬ dir.hasNul := fun nul => by rw [entry_nul_iff.mpr nul] at leads; cases leads
  have start : dir.root = .relative → s.node? s.cwd ≠ none := by
    intro relative
    have start := makeDirs_start made
    rwa [origin, if_pos relative] at start
  have start₁ : dir.root = .relative → s₁.node? s₁.cwd ≠ none := by
    intro relative
    rw [grows.cwd]
    exact (grows.becomes _).ne_none (start relative)
  rw [locate_straight linkless noNul start,
    locate_straight (grows.linkless linkless) noNul start₁, grows.straight]

theorem archive_before {dir p : Path} (linkless : s.Linkless) (made : (s.makeDirs dir).2 = none)
    (grows : s.Grows s₁) (named : dir.archive s₁.locate = .ok p) :
    dir.archive s.locate = .ok p := by
  rw [Path.archive, Path.named, ← locate_grown linkless made grows]
  exact named

theorem Course.touches [Schema] (linkless : s.Linkless)
    (course : s.Course input options outcome s') :
    s' = s ∨ ∃ config, options.resolve s.locate input = .ok config ∧
      s.Touches s' (·.LeadsTo config.outputDir) (s.Output config) := by
  cases course with
  | misled | unread => exact .inl rfl
  | @unwritten config _ _ _ resolved _ emits | @written config _ _ _ resolved _ emits =>
    exact .inr ⟨config, resolved, emits.touches.mono (fun _ => id) fun _ => .inl⟩
  | @unpacked config _ _ _ _ _ resolved _ emits asked packs _
  | @packed config _ _ _ _ _ resolved _ emits asked packs _ =>
    refine .inr ⟨config, resolved, (emits.touches.mono (fun _ => id) fun _ => .inl).trans
      (packs.touches.mono (fun _ => False.elim) fun p named => .inr ⟨asked, ?_⟩)⟩
    exact archive_before linkless emits.made emits.touches.grows named

end Output

/-- What any split leaves as it was, and what it may have made or changed instead. -/
structure Frame [Schema] (s : Store) (input : Path) (options : Options) (s' : Store) : Prop where
  cwd : s'.cwd = s.cwd
  kept : s.entries.map Prod.fst <+: s'.entries.map Prod.fst
  changed : ∀ place, s'.node? place = s.node? place ∨
    ∃ config, options.resolve s.locate input = .ok config ∧
      ((s.node? place = none ∧
          ∃ p, p.LeadsTo config.outputDir ∧ s'.entry p = .ok (place, .dir)) ∨
        ((s.node? place = none ∨ ∃ old time, s.node? place = some (.file old time)) ∧
          ∃ p content, s.Output config p ∧ s'.entry p = .ok (place, .file content none)))

theorem Course.frame [Schema] (linkless : s.Linkless) (course : s.Course input options outcome s') :
    s.Frame input options s' := by
  rcases course.touches linkless with rfl | ⟨config, resolved, touches⟩
  · exact ⟨rfl, List.prefix_refl _, fun _ => .inl rfl⟩
  · refine ⟨touches.grows.cwd, touches.grows.places, fun place => ?_⟩
    rcases touches.changed place with same | made | ⟨p, content, output, leads⟩
    · exact .inl same
    · exact .inr ⟨config, resolved, .inl made⟩
    · have before := (entry_node leads ▸ touches.grows.becomes place).file
      exact .inr ⟨config, resolved, .inr ⟨before, p, content, output, leads⟩⟩

/-- What a split that succeeds has made of the page: the listed files, in the order in which they
    were written, and nothing else. -/
structure Fulfils (s : Store) (config : Config) (assets : Assets) (files : Manifest) (s' : Store) :
    Prop where
  written : ∃ packings : List (Path × Content),
    Writes (s.makeDirs config.outputDir).1 ((config.plan assets).map encoded ++ packings) s' ∧
      files.paths = (config.plan assets).map Prod.fst ++ files.archivePath.toList ∧
      ∀ p, p ∈ packings.map Prod.fst ↔ files.archivePath = some p
  changed : ∀ place, s'.node? place = s.node? place ∨
    (s.node? place = none ∧ s'.node? place = some .dir) ∨
    ∃ p ∈ files.paths, ∃ content, s'.entry p = .ok (place, .file content none)
  regular : ∀ p ∈ files.paths, ∃ content, s.Keeps s' p content
  archive : ∀ p, files.archivePath = some p ↔
    config.createZip = true ∧ config.outputDir.archive s.locate = .ok p
  shows : Shows s s' config.outputDir assets files.paths
  entry : s.Keeps s' (config.outputDir.child "main.js")
    (.bytes (Utf8.encode (Skeleton.entryScript (config.appName.getD Path.defaultAppName))))
  manifest : s.Keeps s' (config.outputDir.child "package.json")
    (.bytes (Utf8.encode
      (Skeleton.manifest (config.appName.getD Path.defaultAppName) config.appVersion)))

theorem Delivery.fulfils {config : Config} {assets : Assets} {files : Manifest}
    {packings : List (Path × Content)} (delivery : s.Delivery config assets files packings s')
    (linkless : s.Linkless) : s.Fulfils config assets files s' where
  written := ⟨packings, delivery.writes, delivery.listed, delivery.packed⟩
  changed place := by
    have made := s.makeDirs_touches config.outputDir
    rcases delivery.writes.touches.changed place with
      same | ⟨-, _, none, -⟩ | ⟨p, new, written, leads⟩
    · rcases made.changed place with before | ⟨vacant, p, -, leads⟩ | ⟨_, _, none, -⟩
      · exact .inl (same.trans before)
      · exact .inr (.inl ⟨vacant, same.trans (entry_node leads)⟩)
      · exact none.elim
    · exact none.elim
    · exact .inr (.inr ⟨p, delivery.written.mp written, new, leads⟩)
  regular := delivery.remain
  archive p := by
    have archived : ∀ q, files.archivePath = some q →
        config.outputDir.archive s.locate = .ok q := by
      intro q archived
      obtain ⟨s₁, grows, named⟩ := delivery.named q archived
      exact archive_before linkless delivery.made grows named
    constructor
    · intro listed
      refine ⟨?_, archived p listed⟩
      rw [← delivery.asked, listed]
      rfl
    · rintro ⟨asked, named⟩
      rw [← delivery.asked] at asked
      obtain ⟨q, listed⟩ := Option.isSome_iff_exists.mp asked
      have same := archived q listed
      rw [named] at same
      cases same
      exact listed
  shows := delivery.shows linkless
  entry := delivery.keeps linkless (mem_plan.mpr (.inr (.inr (.inl ⟨rfl, rfl⟩))))
  manifest := delivery.keeps linkless (mem_plan.mpr (.inr (.inr (.inr ⟨rfl, rfl⟩))))

theorem splitFile_frame [Schema] (linkless : s.Linkless) (input : Path) (options : Options) :
    s.Frame input options (s.splitFile input options).2.world ∧
    ∀ files, (s.splitFile input options).1 = .done files →
      ∃ config document, options.resolve s.locate input = .ok config ∧
        s.load config.inputPath = .ok document ∧
        s.Fulfils config (.ofText document.text config.extractAll) files
          (s.splitFile input options).2.world := by
  have course := s.splitFile_course input options
  refine ⟨course.frame linkless, fun files done => ?_⟩
  rw [done] at course
  obtain ⟨config, document, packings, resolved, loaded, delivery⟩ := course.delivery
  obtain ⟨same, -⟩ := Options.resolve_paths resolved
  exact ⟨config, document, resolved, same ▸ loaded, delivery.fulfils linkless⟩

open Coercion in
theorem splitFile_frame_of_styledDesk : styledDesk.Linkless ∧
    ∃ files, (styledDesk.splitFile desk.page {}).1 = .done files ∧
      styledDesk.Frame desk.page {} (styledDesk.splitFile desk.page {}).2.world ∧
      ∃ config document, ({} : Options).resolve styledDesk.locate desk.page = .ok config ∧
        styledDesk.load config.inputPath = .ok document ∧
        styledDesk.Fulfils config (.ofText document.text config.extractAll) files
          (styledDesk.splitFile desk.page {}).2.world := by
  obtain ⟨frame, fulfils⟩ := splitFile_frame (desk_linkless _) desk.page {}
  exact ⟨desk_linkless _, _, desk_splits _, frame, fulfils _ (desk_splits _)⟩

open Coercion in
/-- The stylesheet is listed, but a device stands there and no file. -/
theorem splitFile_leaves_device : drainedDesk.Linkless ∧
    ∃ files, (drainedDesk.splitFile desk.page {}).1 = .done files ∧
      desk.output.child "style.css" ∈ files.paths ∧
      (drainedDesk.splitFile desk.page {}).2.world.entry (desk.output.child "style.css") =
        .ok (["p", "style.css"], .device) := by
  have course := drainedDesk.splitFile_course desk.page {}
  rw [drainedDesk_splits] at course
  obtain ⟨config, document, packings, resolved, loaded, delivery⟩ := course.delivery
  have style : (Assets.ofText (Utf8.decode (Utf8.encode "<style>p</style>")) false).text? .style =
      some "p" := by decide +kernel
  refine ⟨drainedDesk_linkless, _, drainedDesk_splits, ?_, ?_⟩
  · exact plan_paths desk.resolved _ ▸ List.mem_map_of_mem (mem_plan_kind.mpr style)
  · exact delivery.grows.entry_device drainedDesk_drains

end Unbundle.Store
