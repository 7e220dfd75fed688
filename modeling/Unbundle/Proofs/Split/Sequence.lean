import Unbundle.Proofs.Split.Again

namespace Unbundle

/-- One call of the splitter. -/
structure Job where
  input : Path
  options : Options

def Job.outputDir (job : Job) : Path := job.options.outputDir.getD job.input.defaultOutput

namespace Store

variable {s s' s₁ : Store} {input dir : Path} {options : Options} {outcome : Outcome}
  {config : Config} {assets : Assets} {kind : Kind} {place : Place} {node : Node}

def splitJob [Schema] (s : Store) (job : Job) : Outcome × Trace Store :=
  s.splitFile job.input job.options

def splitAll [Schema] (s : Store) (jobs : List Job) : Store :=
  jobs.foldl (fun s job => (s.splitJob job).2.world) s

/-- A split finds a text of a kind to move out of the page. -/
def Yields [Schema] (s : Store) (job : Job) (kind : Kind) (t : Text) : Prop :=
  ∃ config document, job.options.resolve s.locate job.input = .ok config ∧
    s.load job.input = .ok document ∧
    (Assets.ofText document.text config.extractAll).text? kind = some t

def kindPlace (s : Store) (dir : Path) (kind : Kind) : Place := s.straight (dir.child kind.file)

section Step

theorem Emits.begins {answer : Except Failure Manifest} (emits : s.Emits config assets answer s') :
    ∃ before rest, config.plan assets = before ++ rest ∧
      Writes (s.makeDirs config.outputDir).1 (before.map encoded) s' := by
  cases emits with
  | unmade => exact ⟨[], _, rfl, .nil _⟩
  | stopped _ planned writes => exact ⟨_, _, planned, writes⟩
  | written _ writes => exact ⟨_, [], (List.append_nil _).symm, writes⟩

/-- What may become of the place for the file of a kind: a split puts there what it found, or makes
    a directory where nothing stood. -/
inductive Steps (s s' : Store) (place : Place) (found : Text → Prop) : Prop
  | same (same : s'.node? place = s.node? place)
  | made (vacant : s.node? place = none) (dir : s'.node? place = some .dir)
  | written {t : Text} (found : found t)
      (file : s'.node? place = some (.file (.bytes (Utf8.encode t)) none))

theorem Steps.same_after {found : Text → Prop} (steps : Steps s s₁ place found)
    (same : s'.node? place = s₁.node? place) : Steps s s' place found := by
  cases steps with
  | same before => exact .same (same.trans before)
  | made vacant dir => exact .made vacant (same.trans dir)
  | written found file => exact .written found (same.trans file)

theorem Steps.mono {found found' : Text → Prop} (steps : Steps s s' place found)
    (more : ∀ t, found t → found' t) : Steps s s' place found' := by
  cases steps with
  | same same => exact .same same
  | made vacant dir => exact .made vacant dir
  | written found file => exact .written (more _ found) file

theorem Emits.steps {answer : Except Failure Manifest} (linkless : s.Linkless)
    (emits : s.Emits config assets answer s') (kind : Kind) :
    Steps s s' (s.kindPlace config.outputDir kind) (assets.text? kind = some ·) := by
  have made := s.makeDirs_touches config.outputDir
  have linkless₁ := made.grows.linkless linkless
  obtain ⟨before, rest, planned, writes⟩ := emits.begins
  have isName := isName_of_mem (kind_named kind)
  rcases writes.changes linkless₁ (s.kindPlace config.outputDir kind) with
    same | ⟨w, member, here, file⟩
  · rcases made.changed (s.kindPlace config.outputDir kind) with
      before | ⟨vacant, p, -, leads⟩ | ⟨_, _, none, -⟩
    · exact .same (same.trans before)
    · exact .made vacant (same.trans (entry_node leads))
    · exact none.elim
  · obtain ⟨⟨p, t⟩, listed, rfl⟩ := List.mem_map.mp member
    have listed : (p, t) ∈ config.plan assets := planned ▸ List.mem_append_left _ listed
    obtain ⟨name, named, rfl⟩ := name_of_mem (List.mem_map_of_mem listed)
    -- Of the files written, only the one by this name stands there.
    have last : s.straight config.outputDir ++ [name] =
        s.straight config.outputDir ++ [kind.file] := by
      rw [← straight_child (isName_of_mem named), ← straight_child isName]
      exact (made.grows.straight _).symm.trans here
    obtain rfl : name = kind.file := by simpa using last
    exact .written (mem_plan_kind.mp listed) file

theorem Packs.same {packed : Except Failure Path} (linkless : s.Linkless)
    (packs : s.Packs dir packed s') (above : Path) (kind : Kind) :
    s'.node? (s.kindPlace above kind) = s.node? (s.kindPlace above kind) := by
  have touches := packs.touches
  rcases touches.changed (s.kindPlace above kind) with same | ⟨_, _, none, -⟩ | ⟨p, _, named, leads⟩
  · exact same
  · exact none.elim
  · -- The archive has another name.
    have here := entry_straight (touches.grows.linkless linkless) leads
    rw [touches.grows.straight] at here
    exact absurd here (archive_apart (kind_named kind) named above).straight_ne

theorem Course.steps [Schema] (linkless : s.Linkless) (course : s.Course input options outcome s')
    (kind : Kind) :
    Steps s s' (s.kindPlace (options.outputDir.getD input.defaultOutput) kind)
      (s.Yields ⟨input, options⟩ kind) := by
  have emitted {config : Config} {document : Document} {answer : Except Failure Manifest}
      {s₁ : Store} (resolved : options.resolve s.locate input = .ok config)
      (loaded : s.load input = .ok document)
      (emits : s.Emits config (.ofText document.text config.extractAll) answer s₁) :
      Steps s s₁ (s.kindPlace (options.outputDir.getD input.defaultOutput) kind)
        (s.Yields ⟨input, options⟩ kind) := by
    rw [← (Options.resolve_paths resolved).2]
    exact (emits.steps linkless kind).mono
      fun t moved => ⟨config, document, resolved, loaded, moved⟩
  have packed {config : Config} {s₁ s' : Store} {answer : Except Failure Path} (grows : s.Grows s₁)
      (packs : s₁.Packs config.outputDir answer s') (above : Path) :
      s'.node? (s.kindPlace above kind) = s₁.node? (s.kindPlace above kind) := by
    have same := packs.same (grows.linkless linkless) above kind
    rwa [kindPlace, grows.straight] at same
  cases course with
  | misled | unread => exact .same rfl
  | unwritten resolved loaded emits | written resolved loaded emits =>
    exact emitted resolved loaded emits
  | unpacked resolved loaded emits _ packs | packed resolved loaded emits _ packs =>
    exact (emitted resolved loaded emits).same_after (packed emits.touches.grows packs _)

end Step

section Run

theorem splitJob_grows [Schema] (linkless : s.Linkless) (job : Job) :
    s.Grows (s.splitJob job).2.world := by
  rcases (s.splitFile_course job.input job.options).touches linkless with same | ⟨_, -, touches⟩
  · rw [splitJob, same]
    exact .refl s
  · exact touches.grows

theorem splitAll_grows [Schema] (linkless : s.Linkless) (jobs : List Job) :
    s.Grows (s.splitAll jobs) := by
  induction jobs generalizing s with
  | nil => exact .refl s
  | cons job jobs ih =>
    have grows := splitJob_grows linkless job
    exact grows.trans (ih (grows.linkless linkless))

/-- The file of a kind comes from the start, or from one of the splits. -/
theorem splitAll_traced [Schema] (linkless : s.Linkless) {jobs : List Job}
    (same : ∀ job ∈ jobs, job.outputDir = dir) (kind : Kind)
    (stands : (s.splitAll jobs).node? (s.kindPlace dir kind) = some node) (solid : node ≠ .dir) :
    s.node? (s.kindPlace dir kind) = some node ∨
      ∃ before job after t, jobs = before ++ job :: after ∧
        (s.splitAll before).Yields job kind t ∧
        node = .file (.bytes (Utf8.encode t)) none := by
  induction jobs generalizing s with
  | nil => exact .inl stands
  | cons job jobs ih =>
    rw [List.forall_mem_cons] at same
    have grows := splitJob_grows linkless job
    have place : (s.splitJob job).2.world.kindPlace dir kind = s.kindPlace dir kind :=
      grows.straight _
    rcases ih (grows.linkless linkless) same.2 (place ▸ stands) with
      before | ⟨before, job', after, t, rfl, yields, file⟩
    · rw [place] at before
      have steps := (s.splitFile_course job.input job.options).steps linkless kind
      rw [show job.options.outputDir.getD job.input.defaultOutput = dir from same.1] at steps
      cases steps with
      | same unchanged => exact .inl (unchanged.symm.trans before)
      | made _ made => exact absurd (Option.some.inj (before.symm.trans made)) solid
      | written yields file =>
        exact .inr ⟨[], job, jobs, _, rfl, yields, Option.some.inj (before.symm.trans file)⟩
    · exact .inr ⟨job :: before, job', after, t, rfl, yields, file⟩

end Run

/-- What the last of several splits leaves in their directory. The pages and the texts that it found
    are all there; of a kind of which it found nothing, the file is the one from before. -/
structure Leaves (before after : Store) (config : Config) (assets : Assets) : Prop where
  page : before.Keeps after (config.outputDir.child "index.html")
    (.bytes (Utf8.encode assets.markup))
  entry : before.Keeps after (config.outputDir.child "main.js")
    (.bytes (Utf8.encode (Skeleton.entryScript (config.appName.getD Path.defaultAppName))))
  manifest : before.Keeps after (config.outputDir.child "package.json")
    (.bytes (Utf8.encode
      (Skeleton.manifest (config.appName.getD Path.defaultAppName) config.appVersion)))
  found : ∀ kind t, assets.text? kind = some t →
    before.Keeps after (config.outputDir.child kind.file) (.bytes (Utf8.encode t))
  left : ∀ kind, assets.text? kind = none → ∀ node, node ≠ .dir →
    (after.node? (before.kindPlace config.outputDir kind) = some node ↔
      before.node? (before.kindPlace config.outputDir kind) = some node)

/-- Something other than a directory stands where the file of a kind has its place. -/
def HasKind (s : Store) (dir : Path) (kind : Kind) : Prop :=
  ∃ node, s.node? (s.kindPlace dir kind) = some node ∧ node ≠ .dir

section Last

variable {document : Document} {files : Manifest}

theorem Course.leaves [Schema] (linkless : s.Linkless)
    (course : s.Course input options (.done files) s') :
    ∃ config document, options.resolve s.locate input = .ok config ∧
      s.load input = .ok document ∧
      Leaves s s' config (.ofText document.text config.extractAll) := by
  obtain ⟨config, document, packings, resolved, loaded, delivery⟩ := course.delivery
  refine ⟨config, document, resolved, loaded, ?_⟩
  exact {
    page := delivery.keeps linkless (mem_plan.mpr (.inr (.inl ⟨rfl, rfl⟩)))
    entry := delivery.keeps linkless (mem_plan.mpr (.inr (.inr (.inl ⟨rfl, rfl⟩))))
    manifest := delivery.keeps linkless (mem_plan.mpr (.inr (.inr (.inr ⟨rfl, rfl⟩))))
    found := fun kind t found => delivery.keeps linkless (mem_plan_kind.mpr found)
    left := fun kind none node solid => by
      have steps := course.steps linkless kind
      rw [← (Options.resolve_paths resolved).2] at steps
      cases steps with
      | same same => rw [same]
      | made vacant dir =>
        rw [vacant, dir]
        simp [solid.symm]
      | written found =>
        obtain ⟨config', document', resolved', loaded', moved⟩ := found
        obtain rfl := Except.ok.inj (resolved.symm.trans resolved')
        obtain rfl := Except.ok.inj (loaded.symm.trans loaded')
        rw [none] at moved
        cases moved }

theorem Leaves.hasKind (leaves : Leaves s s' config assets) (linkless : s.Linkless)
    (grows : s.Grows s') (kind : Kind) : s'.HasKind config.outputDir kind ↔
      (assets.text? kind).isSome ∨ s.HasKind config.outputDir kind := by
  have place : s'.kindPlace config.outputDir kind = s.kindPlace config.outputDir kind :=
    grows.straight _
  cases moved : assets.text? kind with
  | some t =>
    simp only [Option.isSome_some, true_or, iff_true]
    exact Took.stands (grows.linkless linkless) (leaves.found kind t moved).took
  | none =>
    simp only [Option.isSome_none, Bool.false_eq_true, false_or]
    rw [HasKind, HasKind, place]
    exact exists_congr fun node => and_congr_left fun solid => leaves.left kind moved node solid

end Last

section Desks

open Coercion

def desks : Store :=
  ⟨[(["p.html"], .file (.bytes (Utf8.encode "<style>p</style>")) none),
    (["q.html"], .file (.bytes (Utf8.encode "x")) none)], []⟩

def desks.ready : Store :=
  ⟨[(["p.html"], .file (.bytes (Utf8.encode "<style>p</style>")) none),
    (["q.html"], .file (.bytes (Utf8.encode "x")) none), (["p"], .dir)], []⟩

def styledJob : Job := ⟨desk.page, {}⟩

def plainJob : Job := ⟨⟨.relative, ["q.html"]⟩, { outputDir := some desk.output }⟩

def plainConfig : Config :=
  ⟨plainJob.input, desk.output, false, some "p", Config.defaultVersion, false⟩

theorem desks_linkless : desks.Linkless := by
  refine linkless_of_entries fun entry member text => ?_
  simp only [desks, List.mem_cons, List.not_mem_nil, or_false] at member
  rcases member with rfl | rfl <;> exact Node.noConfusion

theorem desks_no_device (place : Place) : desks.node? place ≠ some .device := by
  refine node_of_entries (fun entry member => ?_) Node.noConfusion place
  simp only [desks, List.mem_cons, List.not_mem_nil, or_false] at member
  rcases member with rfl | rfl <;> exact Node.noConfusion

theorem desks_styled : desks.entry styledJob.input =
    .ok (["p.html"], .file (.bytes (Utf8.encode "<style>p</style>")) none) :=
  entry_name (by decide) rfl rfl (by decide) rfl (Node.file_solid _ _)

theorem desks_plain : desks.entry plainJob.input =
    .ok (["q.html"], .file (.bytes (Utf8.encode "x")) none) :=
  entry_name (by decide) rfl rfl (by decide) rfl (Node.file_solid _ _)

theorem desks_splits : (desks.splitJob styledJob).1 = .done
    (.planned (.ofText (Utf8.decode (Utf8.encode "<style>p</style>")) false) desk.output) := by
  have looked : desks.lookup .keepLink desk.output = .ok (.vacant [] "p") :=
    lookup_free (by decide) rfl rfl (by decide) rfl
  have made : desks.makeDirs desk.output = (desks.ready, none) := by
    rw [makeDirs, makeDir, looked]
    rfl
  have leads : desks.ready.entry desk.output = .ok (["p"], .dir) :=
    entry_name (by decide) rfl rfl (by decide) rfl Node.dir_solid
  have resolved : styledJob.options.resolve desks.locate styledJob.input = .ok desk.resolved := rfl
  exact (desks.splitFile_course desk.page {}).of_open resolved
    (load_of_file desks_styled (desks_linkless.not_loops _)) rfl made
    leads fun name member => ⟨desk_askable name member, .inl rfl⟩

def desks.split : Store := desks.splitAll [styledJob]

theorem desks_delivery : ∃ packings, desks.Delivery desk.resolved
    (.ofText (Utf8.decode (Utf8.encode "<style>p</style>")) false)
    (.planned (.ofText (Utf8.decode (Utf8.encode "<style>p</style>")) false) desk.output)
    packings desks.split := by
  have course := desks.splitFile_course styledJob.input styledJob.options
  rw [show (desks.splitFile styledJob.input styledJob.options).1 = _ from desks_splits] at course
  obtain ⟨config, document, packings, resolved, loaded, delivery⟩ := course.delivery
  have resolved' : styledJob.options.resolve desks.locate styledJob.input = .ok desk.resolved := rfl
  obtain rfl := Except.ok.inj (resolved'.symm.trans resolved)
  obtain rfl := Except.ok.inj
    ((load_of_file desks_styled (desks_linkless.not_loops _)).symm.trans loaded)
  exact ⟨packings, delivery⟩

theorem desks_split_linkless : desks.split.Linkless :=
  (splitAll_grows desks_linkless [styledJob]).linkless desks_linkless

theorem desks_split_plain : desks.split.load plainJob.input =
    .ok ⟨desks.split.resolved plainJob.input, Utf8.decode (Utf8.encode "x")⟩ := by
  obtain ⟨packings, delivery⟩ := desks_delivery
  have apart := delivery.apart_from "q.html" ⟨by decide, by decide⟩ (by decide) (by decide)
    ⟨.relative, []⟩
  exact load_of_file (delivery.touches.kept desks_plain (Node.file_solid _ _)
    fun p listed => (apart p listed).not_meet desks_split_linkless)
    (desks_split_linkless.not_loops _)

theorem plain_bare (kind : Kind) :
    (Assets.ofText (Utf8.decode (Utf8.encode "x")) false).text? kind = none := by
  cases kind <;> decide +kernel

theorem desks_split_splits : (desks.split.splitJob plainJob).1 =
    .done (.planned (.ofText (Utf8.decode (Utf8.encode "x")) false) desk.output) := by
  obtain ⟨packings, delivery⟩ := desks_delivery
  have kept : ∀ w ∈ (plainConfig.plan (.ofText (Utf8.decode (Utf8.encode "x")) false)).map encoded,
      ∃ old, desks.split.write w.1 old = .ok desks.split := by
    intro w member
    obtain ⟨⟨p, t⟩, listed, rfl⟩ := List.mem_map.mp member
    obtain ⟨name, named, rfl⟩ := name_of_mem (List.mem_map_of_mem listed)
    have again {name t : Text} (planned : (desk.output.child name, t) ∈ desk.resolved.plan
        (.ofText (Utf8.decode (Utf8.encode "<style>p</style>")) false)) :
        ∃ old, desks.split.write (desk.output.child name) old = .ok desks.split :=
      ⟨_, delivery.kept desks_linkless _ (List.mem_map_of_mem planned)⟩
    rcases mem_plan.mp listed with ⟨kind, moved, -⟩ | ⟨rfl, -⟩ | ⟨rfl, -⟩ | ⟨rfl, -⟩
    · rw [plain_bare] at moved
      cases moved
    · exact again (mem_plan.mpr (.inr (.inl ⟨rfl, rfl⟩)))
    · exact again (mem_plan.mpr (.inr (.inr (.inl ⟨rfl, rfl⟩))))
    · exact again (mem_plan.mpr (.inr (.inr (.inr ⟨rfl, rfl⟩))))
  have resolved : plainJob.options.resolve desks.split.locate plainJob.input =
      .ok plainConfig := rfl
  have made : desks.split.makeDirs desk.output = (desks.split, none) :=
    delivery.makeDirs_again desks_linkless
  obtain ⟨s', writes⟩ := Writes.of_kept desks_split_linkless
    ((encoded_paths _).symm ▸ plan_apart plainConfig _) kept
  have course := desks.split.splitFile_course plainJob.input plainJob.options
  have writes : Writes (desks.split.makeDirs desk.output).1
      ((plainConfig.plan (.ofText (Utf8.decode (Utf8.encode "x")) false)).map encoded) s' := by
    rw [made]
    exact writes
  exact (course.of_writes resolved desks_split_plain rfl (congrArg Prod.snd made) writes).1

end Desks

/-- After splits into one directory, of which the last one succeeds, the page, the entry script and
    the manifest are those of the last split, and so are the stylesheet and the script where it has
    found any. Where it has not, what stands there is what stood there before, from the start or
    from an earlier split. -/
theorem splitAll_leaves [Schema] (linkless : s.Linkless) {jobs : List Job} {last : Job}
    (same : ∀ job ∈ jobs, job.outputDir = last.outputDir)
    (done : ((s.splitAll jobs).splitJob last).1 = .done files) :
    ∃ config document, last.options.resolve (s.splitAll jobs).locate last.input = .ok config ∧
      config.outputDir = last.outputDir ∧ (s.splitAll jobs).load last.input = .ok document ∧
      Leaves (s.splitAll jobs) (s.splitAll (jobs ++ [last])) config
        (.ofText document.text config.extractAll) ∧
      ∀ kind,
        ((s.splitAll (jobs ++ [last])).HasKind last.outputDir kind ↔
          ((Assets.ofText document.text config.extractAll).text? kind).isSome ∨
            (s.splitAll jobs).HasKind last.outputDir kind) ∧
        ∀ node, node ≠ .dir →
          (s.splitAll jobs).node? (s.kindPlace last.outputDir kind) = some node →
          s.node? (s.kindPlace last.outputDir kind) = some node ∨
            ∃ before job after t, jobs = before ++ job :: after ∧
              (s.splitAll before).Yields job kind t ∧
              node = .file (.bytes (Utf8.encode t)) none := by
  have linkless' := (splitAll_grows linkless jobs).linkless linkless
  have after : s.splitAll (jobs ++ [last]) = ((s.splitAll jobs).splitJob last).2.world := by
    rw [splitAll, List.foldl_append]
    rfl
  have course := (s.splitAll jobs).splitFile_course last.input last.options
  have answered : ((s.splitAll jobs).splitFile last.input last.options).1 = .done files := done
  rw [answered] at course
  obtain ⟨config, document, resolved, loaded, leaves⟩ := course.leaves linkless'
  have output : config.outputDir = last.outputDir := (Options.resolve_paths resolved).2
  refine ⟨config, document, resolved, output, loaded, after ▸ leaves, fun kind => ⟨?_, ?_⟩⟩
  · rw [after, ← output]
    exact leaves.hasKind linkless' (splitJob_grows linkless' last) kind
  · exact fun node solid stands => splitAll_traced linkless same kind stands solid

open Coercion in
theorem splitAll_leaves_of_desks : desks.Linkless ∧
    (∀ job ∈ [styledJob], job.outputDir = plainJob.outputDir) ∧
    (∃ files, ((desks.splitAll [styledJob]).splitJob plainJob).1 = .done files) ∧
    (desks.splitAll [styledJob]).Keeps (desks.splitAll [styledJob, plainJob])
      (desk.output.child "index.html") (.bytes (Utf8.encode "x")) := by
  have same : ∀ job ∈ [styledJob], job.outputDir = plainJob.outputDir := by
    rintro job member
    rw [List.mem_singleton.mp member]
    rfl
  refine ⟨desks_linkless, same, ⟨_, desks_split_splits⟩, ?_⟩
  obtain ⟨config, document, resolved, -, loaded, leaves, -⟩ :=
    splitAll_leaves desks_linkless same desks_split_splits
  obtain rfl := Except.ok.inj (desks_split_plain.symm.trans loaded)
  obtain rfl : plainConfig = config := Except.ok.inj resolved
  have markup : (Assets.ofText (Utf8.decode (Utf8.encode "x")) false).markup = "x" := by
    decide +kernel
  have page := leaves.page
  rwa [show plainConfig.extractAll = false from rfl, markup] at page

open Coercion in
/-- The stylesheet of the first page is still there when the second page, which has no style, was
    split into the same directory. -/
theorem splitAll_keeps_style : desks.Linkless ∧
    (∃ files, ((desks.splitAll [styledJob]).splitJob plainJob).1 = .done files) ∧
    (∃ document, (desks.splitAll [styledJob]).load plainJob.input = .ok document ∧
      (Assets.ofText document.text false).styleText = none) ∧
    (desks.splitAll [styledJob, plainJob]).node? ["p", "style.css"] =
      some (.file (.bytes (Utf8.encode "p")) none) := by
  refine ⟨desks_linkless, ⟨_, desks_split_splits⟩, ⟨_, desks_split_plain, plain_bare .style⟩, ?_⟩
  obtain ⟨packings, delivery⟩ := desks_delivery
  have style : (Assets.ofText (Utf8.decode (Utf8.encode "<style>p</style>")) false).text? .style =
      some ("p" : Text) := by decide +kernel
  have place : desks.split.kindPlace desk.output .style = (["p", "style.css"] : Place) :=
    (delivery.grows.straight _).trans (by decide)
  have before : desks.split.node? (desks.split.kindPlace desk.output .style) =
      some (.file (.bytes (Utf8.encode "p")) none) := by
    have keeps := delivery.keeps desks_linkless (mem_plan_kind.mpr style)
    obtain ⟨there, file⟩ := keeps.file desks_no_device
    obtain rfl := entry_straight desks_split_linkless file
    exact entry_node file
  have course := desks.split.splitFile_course plainJob.input plainJob.options
  rw [show (desks.split.splitFile plainJob.input plainJob.options).1 = _ from desks_split_splits]
    at course
  obtain ⟨config, document, resolved, loaded, leaves⟩ := course.leaves desks_split_linkless
  obtain rfl := Except.ok.inj (desks_split_plain.symm.trans loaded)
  obtain rfl : plainConfig = config := Except.ok.inj resolved
  rw [← place]
  exact (leaves.left .style (plain_bare .style) _ (by simp)).mpr before

end Store

end Unbundle
