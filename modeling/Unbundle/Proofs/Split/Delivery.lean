import Mathlib.Data.List.Pairwise
import Unbundle.Options.Coercion
import Unbundle.Proofs.Split.Course
import Unbundle.Proofs.Store.Naming
import Unbundle.Proofs.Store.Overwriting

namespace Unbundle

def Assets.text? (assets : Assets) : Kind → Option Text
  | .style => assets.styleText
  | .script => assets.scriptText

def Manifest.names : List Text :=
  ["style.css", "renderer.js", "index.html", "main.js", "package.json"]

namespace Store

variable {s s₁ s' : Store} {config : Config} {dir p q : Path} {assets : Assets}

section Names

theorem isName_of_mem {name : Text} (member : name ∈ Manifest.names) : IsName name := by
  have all : ∀ name ∈ Manifest.names, ¬ (name = [] ∨ name = ".") ∧ name ≠ ".." := by decide
  exact ⟨(all name member).1, (all name member).2⟩

theorem plan_named (config : Config) (assets : Assets) :
    ∃ named : List (Text × Text), (named.map Prod.fst).Sublist Manifest.names ∧
      config.plan assets = named.map fun file => (config.outputDir.child file.1, file.2) := by
  refine ⟨(assets.styleText.toList.map (Kind.style.file, ·)) ++
    (assets.scriptText.toList.map (Kind.script.file, ·)) ++
    [(Skeleton.pageFile, assets.markup),
      (Skeleton.entryFile, Skeleton.entryScript (config.appName.getD Path.defaultAppName)),
      (Skeleton.manifestFile,
        Skeleton.manifest (config.appName.getD Path.defaultAppName) config.appVersion)], ?_, ?_⟩
  · cases assets.styleText <;> cases assets.scriptText <;>
      simp only [Option.toList_none, Option.toList_some, List.map_nil, List.map_cons,
        List.nil_append, List.cons_append] <;> decide
  · simp only [Config.plan, Manifest.files, List.map_append, List.map_map]
    rfl

theorem plan_apart (config : Config) (assets : Assets) :
    ((config.plan assets).map Prod.fst).Pairwise Apart := by
  obtain ⟨named, sublist, planned⟩ := plan_named config assets
  have differ : (named.map Prod.fst).Pairwise (· ≠ ·) := .sublist sublist (by decide)
  rw [List.pairwise_map] at differ
  rw [planned, List.map_map, List.pairwise_map]
  refine differ.imp_of_mem fun first second differ => ?_
  exact ⟨config.outputDir, config.outputDir, _, _, rfl, rfl,
    isName_of_mem (sublist.subset (List.mem_map_of_mem first)),
    isName_of_mem (sublist.subset (List.mem_map_of_mem second)), differ⟩

theorem name_of_mem (member : p ∈ (config.plan assets).map Prod.fst) :
    ∃ name ∈ Manifest.names, p = config.outputDir.child name := by
  obtain ⟨named, sublist, planned⟩ := plan_named config assets
  rw [planned, List.map_map] at member
  obtain ⟨file, listed, rfl⟩ := List.mem_map.mp member
  exact ⟨file.1, sublist.subset (List.mem_map_of_mem listed), rfl⟩

theorem mem_plan {name t : Text} : (config.outputDir.child name, t) ∈ config.plan assets ↔
    (∃ kind, assets.text? kind = some t ∧ kind.file = name) ∨
    (name = Skeleton.pageFile ∧ t = assets.markup) ∨
    (name = Skeleton.entryFile ∧
      t = Skeleton.entryScript (config.appName.getD Path.defaultAppName)) ∨
    (name = Skeleton.manifestFile ∧
      t = Skeleton.manifest (config.appName.getD Path.defaultAppName) config.appVersion) := by
  have kinds : (∃ kind, assets.text? kind = some t ∧ kind.file = name) ↔
      (∃ a, assets.styleText = some a ∧ Kind.style.file = name ∧ a = t) ∨
      ∃ a, assets.scriptText = some a ∧ Kind.script.file = name ∧ a = t := by
    constructor
    · rintro ⟨kind, moved, named⟩
      cases kind with
      | style => exact .inl ⟨t, moved, named, rfl⟩
      | script => exact .inr ⟨t, moved, named, rfl⟩
    · rintro (⟨_, moved, named, rfl⟩ | ⟨_, moved, named, rfl⟩)
      · exact ⟨.style, moved, named⟩
      · exact ⟨.script, moved, named⟩
  simp only [Config.plan, Manifest.files, List.mem_append, List.mem_map, List.mem_cons,
    Option.mem_toList, Prod.mk.injEq, Path.child_eq_iff, List.not_mem_nil, or_false, or_assoc,
    kinds]

theorem mem_plan_kind {kind : Kind} {t : Text} :
    (config.outputDir.child kind.file, t) ∈ config.plan assets ↔ assets.text? kind = some t := by
  have apart : ∀ other : Kind, other.file = kind.file → other = kind := by
    cases kind <;> rintro (_ | _) <;> decide
  refine mem_plan.trans ⟨?_, fun moved => .inl ⟨kind, moved, rfl⟩⟩
  rintro (⟨other, moved, same⟩ | ⟨same, -⟩ | ⟨same, -⟩ | ⟨same, -⟩)
  · rw [← apart other same, moved]
  all_goals exact absurd same (by cases kind <;> decide)

theorem kind_named (kind : Kind) : kind.file ∈ Manifest.names := by cases kind <;> decide

theorem archive_apart {locate : Locate} {name : Text} (member : name ∈ Manifest.names)
    (named : dir.archive locate = .ok p) (above : Path) : Apart (above.child name) p := by
  obtain ⟨other, base, rfl⟩ := Path.archive_child named
  refine ⟨above, other, name, _, rfl, rfl, isName_of_mem member, isName_zip base, ?_⟩
  rintro rfl
  have last : ∀ name ∈ Manifest.names, name.getLast? ≠ some (.scalar 'p') := by decide
  exact last _ member (List.getLast?_append_of_ne_nil _ (by decide))

end Names

section Effects

variable {answer : Except Failure Manifest} {packed : Except Failure Path}

theorem encoded_paths (files : List (Path × Text)) :
    (files.map encoded).map Prod.fst = files.map Prod.fst := List.map_map

theorem Emits.writes (emits : s.Emits config assets answer s') :
    ∃ ws, Writes (s.makeDirs config.outputDir).1 ws s' ∧
      ∀ p ∈ ws.map Prod.fst, ∃ name ∈ Manifest.names, p = config.outputDir.child name := by
  cases emits with
  | unmade => exact ⟨[], .nil _, nofun⟩
  | stopped _ planned writes _ =>
    refine ⟨_, writes, fun p member => ?_⟩
    have listed : p ∈ (config.plan assets).map Prod.fst := by
      rw [planned, List.map_append]
      exact List.mem_append_left _ (encoded_paths _ ▸ member)
    exact name_of_mem listed
  | written _ writes =>
    exact ⟨_, writes, fun p member => name_of_mem (encoded_paths _ ▸ member)⟩

theorem Emits.touches (emits : s.Emits config assets answer s') :
    s.Touches s' (·.LeadsTo config.outputDir)
      (fun p => ∃ name ∈ Manifest.names, p = config.outputDir.child name) := by
  obtain ⟨ws, writes, named⟩ := emits.writes
  exact ((s.makeDirs_touches config.outputDir).mono (fun _ => id) fun _ => False.elim).trans
    (writes.touches.mono (fun _ => False.elim) named)

theorem Emits.made {files : Manifest} (emits : s.Emits config assets (.ok files) s') :
    (s.makeDirs config.outputDir).2 = none := by
  cases emits with
  | written made => exact made

theorem Packs.writes (packs : s.Packs dir packed s') :
    ∃ ws, Writes s ws s' ∧ ∀ p ∈ ws.map Prod.fst, dir.archive s.locate = .ok p := by
  cases packs with
  | refused => exact ⟨[], .nil _, nofun⟩
  | stopped named writes | packed named _ writes =>
    refine ⟨_, writes, fun p member => ?_⟩
    obtain ⟨write, listed, rfl⟩ := List.mem_map.mp member
    obtain ⟨content, -, rfl⟩ := List.mem_map.mp listed
    exact named

theorem Packs.touches (packs : s.Packs dir packed s') :
    s.Touches s' (fun _ => False) (fun p => dir.archive s.locate = .ok p) := by
  obtain ⟨ws, writes, named⟩ := packs.writes
  exact writes.touches.mono (fun _ => id) named

end Effects

/-- What a split that succeeds has written, in order: the files of the application, then the archive
    anew for each of its members. -/
structure Delivery (s : Store) (config : Config) (assets : Assets) (files : Manifest)
    (packings : List (Path × Content)) (s' : Store) : Prop where
  made : (s.makeDirs config.outputDir).2 = none
  writes : Writes (s.makeDirs config.outputDir).1 ((config.plan assets).map encoded ++ packings) s'
  listed : files.paths = (config.plan assets).map Prod.fst ++ files.archivePath.toList
  packed : ∀ p, p ∈ packings.map Prod.fst ↔ files.archivePath = some p
  asked : files.archivePath.isSome = config.createZip
  named : ∀ p, files.archivePath = some p →
    ∃ s₁, s.Grows s₁ ∧ config.outputDir.archive s₁.locate = .ok p

theorem plan_paths (config : Config) (assets : Assets) :
    (config.plan assets).map Prod.fst = (Manifest.planned assets config.outputDir).paths := by
  cases style : assets.styleText <;> cases script : assets.scriptText <;>
    simp only [Config.plan, Manifest.paths, Manifest.planned, Manifest.files, style, script] <;> rfl

theorem Course.delivery [Schema] {input : Path} {options : Options} {files : Manifest}
    (course : s.Course input options (.done files) s') :
    ∃ config document packings, options.resolve s.locate input = .ok config ∧
      s.load input = .ok document ∧
      s.Delivery config (.ofText document.text config.extractAll) files packings s' := by
  cases course with
  | @written config document _ _ resolved loaded emits unasked =>
    refine ⟨config, document, [], resolved, loaded, ?_⟩
    cases emits with
    | written made writes =>
      exact {
        made
        writes := by rw [List.append_nil]; exact writes
        listed := by rw [plan_paths]; exact (List.append_nil _).symm
        packed := by simp [Manifest.planned]
        asked := by rw [unasked]; rfl
        named := by simp [Manifest.planned] }
  | @packed config document planned archive _ _ resolved loaded emits asked packs _ =>
    have grows := emits.touches.grows
    cases packs with
    | @packed _ contents _ named begun packed =>
      refine ⟨config, document, contents.map (archive, ·), resolved, loaded, ?_⟩
      cases emits with
      | written made writes =>
        exact {
          made
          writes := writes.append packed
          listed := by
            rw [plan_paths]
            exact congrArg (· ++ [archive]) (List.append_nil _).symm
          packed := fun p => by
            obtain ⟨content, rest, rfl⟩ := List.exists_cons_of_ne_nil begun
            simp [eq_comm]
          asked := by rw [asked]; rfl
          named := by
            rintro _ ⟨⟩
            exact ⟨_, grows, named⟩ }

/-- The parts that a page was taken apart into stand in the output, each in a file of its own. -/
structure Shows (s s' : Store) (dir : Path) (assets : Assets) (paths : List Path) : Prop where
  page : s.Keeps s' (dir.child "index.html") (.bytes (Utf8.encode assets.markup))
  style_listed : dir.child "style.css" ∈ paths ↔ assets.styleText.isSome
  style : ∀ t, assets.styleText = some t →
    s.Keeps s' (dir.child "style.css") (.bytes (Utf8.encode t))
  script_listed : dir.child "renderer.js" ∈ paths ↔ assets.scriptText.isSome
  script : ∀ t, assets.scriptText = some t →
    s.Keeps s' (dir.child "renderer.js") (.bytes (Utf8.encode t))

namespace Delivery

variable {files : Manifest} {packings : List (Path × Content)} {t : Text}
  (delivery : s.Delivery config assets files packings s')

include delivery

theorem grows : s.Grows s' :=
  (s.makeDirs_touches config.outputDir).grows.trans delivery.writes.touches.grows

theorem apart : files.paths.Pairwise Apart := by
  rw [delivery.listed, List.pairwise_append]
  refine ⟨plan_apart _ _, ?_, fun p member q archive => ?_⟩
  · cases files.archivePath <;> simp
  · obtain ⟨s₁, -, named⟩ := delivery.named q (Option.mem_toList.mp archive)
    obtain ⟨name, listed, rfl⟩ := name_of_mem member
    exact archive_apart listed named _

theorem packings_listed (fs : List (Path × Text)) :
    q ∈ (fs.map encoded ++ packings).map Prod.fst ↔
      q ∈ fs.map Prod.fst ++ files.archivePath.toList := by
  rw [List.map_append, encoded_paths, List.mem_append, List.mem_append, Option.mem_toList,
    delivery.packed q]

theorem written : q ∈ ((config.plan assets).map encoded ++ packings).map Prod.fst ↔
    q ∈ files.paths := by
  rw [delivery.listed]
  exact delivery.packings_listed _

theorem writing (member : (p, t) ∈ config.plan assets) : ∃ s₁ s₂, s.Grows s₁ ∧
    s₁.write p (.bytes (Utf8.encode t)) = .ok s₂ ∧
    s₂.Touches s' (fun _ => False) (fun q => q ∈ files.paths ∧ q ≠ p) := by
  have apart := delivery.apart
  have writes := delivery.writes
  have listed := delivery.listed
  obtain ⟨before, after, split⟩ := List.append_of_mem member
  rw [split, List.map_append, List.map_cons, List.append_assoc] at writes listed
  rw [listed] at apart
  obtain ⟨s₁, first, writes⟩ := writes.split
  cases writes with
  | @cons _ s₂ _ _ _ _ wrote later =>
    have grows := (s.makeDirs_touches config.outputDir).grows.trans first.touches.grows
    refine ⟨s₁, s₂, grows, wrote, later.touches.mono (fun _ => id) fun q member => ?_⟩
    -- The paths written later stand behind this one in the list, which names no path twice.
    have behind := (delivery.packings_listed after).mp member
    have differ := (List.pairwise_cons.mp (List.pairwise_append.mp apart).2.1).1 q behind
    refine ⟨?_, differ.ne.symm⟩
    rw [listed]
    exact List.mem_append_right _ (List.mem_cons_of_mem _ behind)

theorem took (member : (p, t) ∈ config.plan assets)
    (alone : ∀ q ∈ files.paths, q ≠ p → ¬ s'.Meet p q) : s'.Took p (.bytes (Utf8.encode t)) := by
  obtain ⟨s₁, s₂, -, wrote, later⟩ := delivery.writing member
  exact later.took (write_takes wrote) fun q listed => alone q listed.1 listed.2

theorem alone (linkless : s.Linkless) (member : p ∈ files.paths) :
    ∀ q ∈ files.paths, q ≠ p → ¬ s'.Meet p q := by
  intro q listed differ
  have apart := delivery.apart.forall member listed differ.symm
  exact apart.not_meet (delivery.grows.linkless linkless)

theorem holds (linkless : s.Linkless) (member : (p, t) ∈ config.plan assets) :
    s'.Took p (.bytes (Utf8.encode t)) := by
  refine delivery.took member (delivery.alone linkless ?_)
  rw [delivery.listed]
  exact List.mem_append_left _ (List.mem_map_of_mem member)

theorem keeps (linkless : s.Linkless) (member : (p, t) ∈ config.plan assets) :
    s.Keeps s' p (.bytes (Utf8.encode t)) :=
  delivery.grows.keeps (delivery.holds linkless member)

theorem remain : ∀ p ∈ files.paths, ∃ content, s.Keeps s' p content := by
  intro p member
  obtain ⟨content, took⟩ := delivery.writes.remains (delivery.written.mpr member)
  exact ⟨content, delivery.grows.keeps took⟩

theorem listed_iff {name : Text} (member : name ∈ Manifest.names) :
    config.outputDir.child name ∈ files.paths ↔
      ∃ t, (config.outputDir.child name, t) ∈ config.plan assets := by
  rw [delivery.listed, List.mem_append]
  constructor
  · rintro (planned | archive)
    · obtain ⟨⟨_, t⟩, planned, rfl⟩ := List.mem_map.mp planned
      exact ⟨t, planned⟩
    · obtain ⟨s₁, -, named⟩ := delivery.named _ (Option.mem_toList.mp archive)
      exact absurd rfl (archive_apart member named config.outputDir).ne
  · rintro ⟨t, planned⟩
    exact .inl (List.mem_map_of_mem planned)

theorem kind_listed (kind : Kind) :
    config.outputDir.child kind.file ∈ files.paths ↔ (assets.text? kind).isSome := by
  rw [delivery.listed_iff (kind_named kind), Option.isSome_iff_exists]
  exact exists_congr fun t => mem_plan_kind

theorem shows (linkless : s.Linkless) : Shows s s' config.outputDir assets files.paths where
  page := delivery.keeps linkless (mem_plan.mpr (.inr (.inl ⟨rfl, rfl⟩)))
  style_listed := delivery.kind_listed .style
  style _ moved := delivery.keeps linkless (mem_plan.mpr (.inl ⟨.style, moved, rfl⟩))
  script_listed := delivery.kind_listed .script
  script _ moved := delivery.keeps linkless (mem_plan.mpr (.inl ⟨.script, moved, rfl⟩))

end Delivery

section Success

variable {input : Path} {options : Options}

theorem Emits.of_writes {answer : Except Failure Manifest}
    (emits : s.Emits config assets answer s') (made : (s.makeDirs config.outputDir).2 = none)
    (writes : Writes (s.makeDirs config.outputDir).1 ((config.plan assets).map encoded) s₁) :
    answer = .ok (.planned assets config.outputDir) ∧ s' = s₁ := by
  cases emits with
  | unmade refused =>
    rw [made] at refused
    cases refused
  | written _ writes' => exact ⟨rfl, writes'.unique writes⟩
  | stopped _ planned before refused =>
    -- The same files lead to the same store, so the write that was refused would have gone through.
    rw [planned, List.map_append, List.map_cons] at writes
    obtain ⟨s₂, before', writes⟩ := writes.split
    obtain rfl := before.unique before'
    cases writes with
    | cons wrote =>
      rw [refused] at wrote
      cases wrote

theorem Course.of_writes [Schema] {document : Document} {outcome : Outcome}
    (course : s.Course input options outcome s')
    (resolved : options.resolve s.locate input = .ok config) (loaded : s.load input = .ok document)
    (unasked : config.createZip = false) (made : (s.makeDirs config.outputDir).2 = none)
    (writes : Writes (s.makeDirs config.outputDir).1
      ((config.plan (.ofText document.text config.extractAll)).map encoded) s₁) :
    outcome = .done (.planned (.ofText document.text config.extractAll) config.outputDir) ∧
      s' = s₁ := by
  cases course with
  | misled refused => simp [resolved] at refused
  | unread _ unread => simp [loaded] at unread
  | unwritten resolved' loaded' emits =>
    obtain rfl := Except.ok.inj (resolved.symm.trans resolved')
    obtain rfl := Except.ok.inj (loaded.symm.trans loaded')
    exact absurd (emits.of_writes made writes).1 nofun
  | written resolved' loaded' emits =>
    obtain rfl := Except.ok.inj (resolved.symm.trans resolved')
    obtain rfl := Except.ok.inj (loaded.symm.trans loaded')
    obtain ⟨files, rfl⟩ := emits.of_writes made writes
    exact ⟨by rw [Except.ok.inj files], rfl⟩
  | unpacked resolved' _ _ asked | packed resolved' _ _ asked =>
    obtain rfl := Except.ok.inj (resolved.symm.trans resolved')
    rw [unasked] at asked
    cases asked

theorem plan_writes (config : Config) {place : Place}
    (leads : s.entry config.outputDir = .ok (place, .dir))
    (opens : ∀ name ∈ Manifest.names, (config.outputDir.child name).Askable ∧
      s.Open (place ++ [name])) (assets : Assets) :
    ∃ s', Writes s ((config.plan assets).map encoded) s' := by
  obtain ⟨named, sublist, planned⟩ := plan_named config assets
  have paths : (named.map fun file => (file.1, Content.bytes (Utf8.encode file.2))).map Prod.fst =
      named.map Prod.fst := List.map_map
  have short : ∀ name ∈ Manifest.names, ¬ nameLimit < (Utf8.encode name).length := by decide
  have differ : (named.map Prod.fst).Nodup := .sublist sublist (by decide)
  obtain ⟨s', writes⟩ := Writes.of_open leads (paths.symm ▸ differ) fun name member => by
    have member := sublist.subset (paths ▸ member)
    have isName := isName_of_mem member
    exact ⟨(opens name member).1, ⟨isName.named, isName.notUp, by simp, short name member⟩,
      (opens name member).2⟩
  have planned := congrArg (List.map encoded) planned
  rw [List.map_map] at planned writes
  exact ⟨s', planned ▸ writes⟩

theorem Course.of_open [Schema] {document : Document} {outcome : Outcome} {place : Place}
    (course : s.Course input options outcome s')
    (resolved : options.resolve s.locate input = .ok config) (loaded : s.load input = .ok document)
    (unasked : config.createZip = false) (made : s.makeDirs config.outputDir = (s₁, none))
    (leads : s₁.entry config.outputDir = .ok (place, .dir))
    (opens : ∀ name ∈ Manifest.names, (config.outputDir.child name).Askable ∧
      s₁.Open (place ++ [name])) :
    outcome = .done (.planned (.ofText document.text config.extractAll) config.outputDir) := by
  obtain ⟨s₂, writes⟩ := plan_writes config leads opens (.ofText document.text config.extractAll)
  have writes : Writes (s.makeDirs config.outputDir).1
      ((config.plan (.ofText document.text config.extractAll)).map encoded) s₂ := made ▸ writes
  exact (course.of_writes resolved loaded unasked (congrArg Prod.snd made) writes).1

end Success

section Desk

open Coercion

def desk (data : List UInt8) : Store := ⟨[(["p.html"], .file (.bytes data) none)], []⟩

def desk.ready (data : List UInt8) : Store :=
  ⟨[(["p.html"], .file (.bytes data) none), (["p"], .dir)], []⟩

def styledDesk : Store := desk (Utf8.encode "<style>p</style>")

def desk.page : Path := ⟨.relative, ["p.html"]⟩

def desk.output : Path := ⟨.relative, ["p"]⟩

def desk.resolved : Config := ⟨page, output, false, some "p", Config.defaultVersion, false⟩

variable (data : List UInt8)

theorem desk_linkless : (desk data).Linkless := by
  refine linkless_of_entries fun entry member text => ?_
  simp only [desk, List.mem_cons, List.not_mem_nil, or_false] at member
  exact member ▸ Node.noConfusion

theorem desk_no_device (place : Place) : (desk data).node? place ≠ some .device := by
  refine node_of_entries (fun entry member => ?_) Node.noConfusion place
  simp only [desk, List.mem_cons, List.not_mem_nil, or_false] at member
  exact member ▸ Node.noConfusion

theorem desk_resolve :
    ({} : Options).resolve (desk data).locate desk.page = .ok desk.resolved := rfl

theorem desk_entry :
    (desk data).entry desk.page = .ok (["p.html"], .file (.bytes data) none) :=
  entry_name (by decide) rfl rfl (by decide) rfl (Node.file_solid _ _)

theorem desk_load :
    (desk data).load desk.page = .ok ⟨(desk data).resolved desk.page, Utf8.decode data⟩ :=
  load_of_file (desk_entry data) ((desk_linkless data).not_loops _)

theorem desk_inspects (all : Bool) :
    ((desk data).inspectFile desk.page all).1 = .ok (.ofText (Utf8.decode data) all) := by
  rw [((desk data).inspectFile_eq desk.page all).1, desk_load]
  rfl

theorem desk_makeDirs : (desk data).makeDirs desk.output = (desk.ready data, none) := by
  have looked : (desk data).lookup .keepLink desk.output = .ok (.vacant [] "p") :=
    lookup_free (by decide) rfl rfl (by decide) rfl
  rw [makeDirs, makeDir, looked]
  rfl

theorem desk_ready : (desk.ready data).entry desk.output = .ok (["p"], .dir) :=
  entry_name (by decide) rfl rfl (by decide) rfl Node.dir_solid

theorem desk_askable : ∀ name ∈ Manifest.names, (desk.output.child name).Askable := by decide

theorem desk_open : ∀ name ∈ Manifest.names, (desk.output.child name).Askable ∧
    (desk.ready data).Open ((["p"] : Place) ++ [name]) :=
  fun name member => ⟨desk_askable name member, .inl rfl⟩

theorem desk_splits : ((desk data).splitFile desk.page {}).1 =
    .done (.planned (.ofText (Utf8.decode data) false) desk.output) :=
  ((desk data).splitFile_course desk.page {}).of_open (desk_resolve data) (desk_load data) rfl
    (desk_makeDirs data) (desk_ready data) (desk_open data)

def drainedDesk : Store :=
  ⟨[(["p.html"], .file (.bytes (Utf8.encode "<style>p</style>")) none), (["p"], .dir),
    (["p", "style.css"], .device)], []⟩

theorem drainedDesk_linkless : drainedDesk.Linkless := by
  refine linkless_of_entries fun entry member text => ?_
  simp only [drainedDesk, List.mem_cons, List.not_mem_nil, or_false] at member
  rcases member with rfl | rfl | rfl <;> exact Node.noConfusion

theorem drainedDesk_load : drainedDesk.load desk.page =
    .ok ⟨drainedDesk.resolved desk.page, Utf8.decode (Utf8.encode "<style>p</style>")⟩ := by
  have leads : drainedDesk.entry desk.page = .ok (["p.html"], _) :=
    entry_name (by decide) rfl rfl (by decide) rfl (Node.file_solid _ _)
  exact load_of_file leads (drainedDesk_linkless.not_loops _)

theorem drainedDesk_drains : drainedDesk.entry (desk.output.child "style.css") =
    .ok (["p", "style.css"], .device) := by
  refine entry_eq_ok_iff.mpr (lookup_eq_ok_iff.mpr ⟨by decide, ?_⟩)
  refine .down rfl ⟨by decide, by decide, by simp, by decide⟩ rfl Node.dir_solid ?_
  exact .down rfl ⟨by decide, by decide, by simp, by decide⟩ rfl Node.device_solid (.here rfl)

theorem drainedDesk_splits : (drainedDesk.splitFile desk.page {}).1 =
    .done (.planned (.ofText (Utf8.decode (Utf8.encode "<style>p</style>")) false)
      desk.output) := by
  have resolved : ({} : Options).resolve drainedDesk.locate desk.page = .ok desk.resolved := rfl
  have leads : drainedDesk.entry desk.output = .ok (["p"], .dir) :=
    entry_name (by decide) rfl rfl (by decide) rfl Node.dir_solid
  have opens : ∀ name ∈ Manifest.names, drainedDesk.Open ((["p"] : Place) ++ [name]) := by
    simp only [Manifest.names, List.forall_mem_cons]
    exact ⟨.inr rfl, .inl rfl, .inl rfl, .inl rfl, .inl rfl, by simp⟩
  exact (drainedDesk.splitFile_course desk.page {}).of_open resolved drainedDesk_load rfl
    (makeDirs_again drainedDesk_linkless leads) leads
    fun name member => ⟨desk_askable name member, opens name member⟩

end Desk

end Store

end Unbundle
