import Unbundle.Command
import Unbundle.Proofs.Options.Resolved
import Unbundle.Proofs.Split.Runs
import Unbundle.Proofs.Store.Straight

namespace Unbundle

def Config.plan (c : Config) (assets : Assets) : List (Path × Text) :=
  Manifest.files assets c.outputDir (c.appName.getD Path.defaultAppName) c.appVersion

namespace Store

variable {s s₁ s' : Store} {input dir : Path} {options : Options}

def load (s : Store) (input : Path) : Except Failure Document := do
  s.validate input
  s.readPage input

section Reading

theorem validate_ends (s : Store) (input : Path) :
    Task.Ends (stages.validate input) s (s.validate input) s :=
  (Task.ends_world s).bind (Task.ends_ofExcept rfl s)

theorem read_ends (s : Store) (input : Path) :
    Task.Ends (stages.read input) s (s.readPage input) s :=
  (Task.ends_world s).bind (Task.ends_ofExcept rfl s)

theorem notices_end (notices : List Notice) (s : Store) :
    Task.Ends (notices.forM fun notice =>
      (Task.say .warning .extraction notice.message : Task Store Unit)) s (.ok ()) s := by
  induction notices with
  | nil => exact Task.ends_pure () s
  | cons notice rest ih => exact (Task.ends_say _ _ _ s).bind ih

theorem extract_ends (page : Text) (all : Bool) (s : Store) :
    Task.Ends (stages.extract page all) s (.ok (Assets.ofText page all)) s :=
  (notices_end _ s).bind (Task.ends_pure _ s)

theorem load_cases (s : Store) (input : Path) :
    (∃ f, s.validate input = .error f ∧ s.load input = .error f) ∨
    s.validate input = .ok () ∧ s.load input = s.readPage input := by
  unfold load
  cases s.validate input with
  | error f => exact .inl ⟨f, rfl, rfl⟩
  | ok _ => exact .inr ⟨rfl, rfl⟩

section File

variable {place : Place} {content : Content} {time : Option Int} {document : Document}

theorem readPage_of_file (leads : s.entry input = .ok (place, .file content time))
    (whole : ¬ s.Loops input) :
    s.readPage input = .ok ⟨s.resolved input, Utf8.decode content.data⟩ := by
  rw [readPage, contents, leads, locate_of_leads leads whole]
  rfl

theorem readPage_text (leads : s.entry input = .ok (place, .file content time))
    (read : s.readPage input = .ok document) : document.text = Utf8.decode content.data ∧
      s.locate input = .ok document.path := by
  rw [readPage, contents, leads] at read
  cases located : s.locate input with
  | error f =>
    rw [located] at read
    cases read
  | ok q =>
    rw [located] at read
    cases read
    exact ⟨rfl, rfl⟩

theorem load_of_file (leads : s.entry input = .ok (place, .file content time))
    (whole : ¬ s.Loops input) :
    s.load input = .ok ⟨s.resolved input, Utf8.decode content.data⟩ := by
  rw [load, validate, leads]
  exact readPage_of_file leads whole

theorem file_of_validate (valid : s.validate input = .ok ()) :
    ∃ place content time, s.entry input = .ok (place, .file content time) := by
  unfold validate at valid
  split at valid
  · exact ⟨_, _, _, ‹_›⟩
  · cases valid
  · cases valid
  · cases valid
  · split at valid <;> cases valid

theorem file_of_load (loaded : s.load input = .ok document) : ∃ place content time,
    s.entry input = .ok (place, .file content time) ∧
      document.text = Utf8.decode content.data := by
  rcases s.load_cases input with ⟨f, -, failed⟩ | ⟨valid, read⟩
  · rw [failed] at loaded
    cases loaded
  · obtain ⟨place, content, time, leads⟩ := file_of_validate valid
    exact ⟨place, content, time, leads, (readPage_text leads (read.symm.trans loaded)).1⟩

end File

theorem inspect_ends (s : Store) (input : Path) (all : Bool) :
    Task.Ends (inspect stages input all) s
      ((s.load input).map fun document => Assets.ofText document.text all) s := by
  have validated := s.validate_ends input
  have read := s.read_ends input
  unfold inspect
  rcases s.load_cases input with ⟨f, invalid, loaded⟩ | ⟨valid, loaded⟩
  · rw [loaded]
    rw [invalid] at validated
    exact validated.halt
  · rw [valid] at validated
    rw [loaded]
    refine validated.bind ?_
    cases page : s.readPage input with
    | error f =>
      rw [page] at read
      exact read.halt
    | ok document =>
      rw [page] at read
      exact read.bind (extract_ends _ _ s)

theorem inspectFile_eq (s : Store) (input : Path) (all : Bool) :
    (s.inspectFile input all).1 =
        (s.load input).map (fun document => Assets.ofText document.text all) ∧
      (s.inspectFile input all).2.world = s := by
  obtain ⟨log, ran⟩ := s.inspect_ends input all []
  have answered : s.inspectFile input all = _ := ran
  rw [answered]
  exact ⟨rfl, rfl⟩

end Reading

section Emission

def encoded (file : Path × Text) : Path × Content := (file.1, .bytes (Utf8.encode file.2))

/-- How the files of an application can be written: into the directory made for them, in their
    order, up to the first that is refused. -/
inductive Emits (s : Store) (config : Config) (assets : Assets) :
    Except Failure Manifest → Store → Prop
  | unmade {fault : PathFault} (refused : (s.makeDirs config.outputDir).2 = some fault) :
      Emits s config assets (.error (failureAt config.outputDir fault))
        (s.makeDirs config.outputDir).1
  | stopped {s' : Store} {before rest : List (Path × Text)} {target : Path} {t : Text}
      {fault : PathFault} (made : (s.makeDirs config.outputDir).2 = none)
      (planned : config.plan assets = before ++ (target, t) :: rest)
      (writes : Writes (s.makeDirs config.outputDir).1 (before.map encoded) s')
      (refused : s'.write target (.bytes (Utf8.encode t)) = .error fault) :
      Emits s config assets (.error (failureAt target fault)) s'
  | written {s' : Store} (made : (s.makeDirs config.outputDir).2 = none)
      (writes : Writes (s.makeDirs config.outputDir).1 ((config.plan assets).map encoded) s') :
      Emits s config assets (.ok (.planned assets config.outputDir)) s'

theorem ensureDir_ends (s : Store) (dir : Path) : Task.Ends (ensureDir dir) s
    (((s.makeDirs dir).2.map (failureAt dir)).elim (.ok ()) .error) (s.makeDirs dir).1 := by
  have leads := makeDirs_leads (s := s) (p := dir)
  unfold ensureDir
  refine (Task.ends_world s).bind ?_
  cases made : s.makeDirs dir with
  | mk s' refused =>
    rw [made] at leads
    refine (Task.ends_become s s').bind ?_
    cases refused with
    | some fault => exact Task.ends_fail _ s'
    | none =>
      obtain ⟨place, leads⟩ := leads rfl
      have standing : s'.isDir dir = .ok true := by rw [isDir, holds, leads]
      rw [standing]
      exact Task.ends_pure () s'

theorem writeText_ends {target : Path} {t : Text}
    (wrote : s.write target (.bytes (Utf8.encode t)) = .ok s') :
    Task.Ends (writeText target t) s (.ok ()) s' := by
  unfold writeText
  refine (Task.ends_world s).bind ?_
  rw [wrote]
  exact (Task.ends_become s s').bind (Task.ends_say _ _ _ s')

theorem writeText_halts {target : Path} {t : Text} {fault : PathFault}
    (refused : s.write target (.bytes (Utf8.encode t)) = .error fault) :
    Task.Ends (writeText target t) s (.error (failureAt target fault)) s := by
  unfold writeText
  refine (Task.ends_world s).bind ?_
  rw [refused]
  exact Task.ends_fail _ s

theorem writeTexts_end (files : List (Path × Text)) (s : Store) :
    (∃ s', Task.Ends (files.forM fun (target, t) => writeText target t) s (.ok ()) s' ∧
      Writes s (files.map encoded) s') ∨
    ∃ before target t rest fault s', files = before ++ (target, t) :: rest ∧
      Task.Ends (files.forM fun (target, t) => writeText target t) s
        (.error (failureAt target fault)) s' ∧
      Writes s (before.map encoded) s' ∧
      s'.write target (.bytes (Utf8.encode t)) = .error fault := by
  -- Each file is written to the store that the files before it left.
  induction files generalizing s with
  | nil => exact .inl ⟨s, Task.ends_pure () s, .nil s⟩
  | cons file files ih =>
    obtain ⟨target, t⟩ := file
    cases wrote : s.write target (.bytes (Utf8.encode t)) with
    | error fault =>
      exact .inr ⟨[], target, t, files, fault, s, rfl, (writeText_halts wrote).halt, .nil s, wrote⟩
    | ok s₁ =>
      rcases ih s₁ with ⟨s', ends, writes⟩ |
        ⟨before, target', t', rest, fault, s', rfl, ends, writes, refused⟩
      · exact .inl ⟨s', (writeText_ends wrote).bind ends, .cons wrote writes⟩
      · exact .inr ⟨(target, t) :: before, target', t', rest, fault, s', rfl,
          (writeText_ends wrote).bind ends, .cons wrote writes, refused⟩

theorem emit_ends (s : Store) (config : Config) (assets : Assets) :
    ∃ answer s', Task.Ends (emit assets config.outputDir
        (config.appName.getD Path.defaultAppName) config.appVersion) s answer s' ∧
      s.Emits config assets answer s' := by
  have readied := s.ensureDir_ends config.outputDir
  unfold emit
  cases made : (s.makeDirs config.outputDir).2 with
  | some fault =>
    rw [made] at readied
    exact ⟨_, _, readied.halt, .unmade made⟩
  | none =>
    rw [made] at readied
    rcases writeTexts_end (config.plan assets) (s.makeDirs config.outputDir).1 with
      ⟨s', ends, writes⟩ | ⟨before, target, t, rest, fault, s', planned, ends, writes, refused⟩
    · exact ⟨_, s', readied.bind (ends.bind (Task.ends_pure _ s')), .written made writes⟩
    · exact ⟨_, s', readied.bind ends.halt, .stopped made planned writes refused⟩

end Emission

section Packing

/-- How a directory can be packed: the archive is written anew with each member. -/
inductive Packs (s : Store) (dir : Path) : Except Failure Path → Store → Prop
  | refused {f : Failure} : Packs s dir (.error f) s
  | stopped {f : Failure} {archive : Path} {contents : List Content} {s' : Store}
      (named : dir.archive s.locate = .ok archive)
      (writes : Writes s (contents.map (archive, ·)) s') : Packs s dir (.error f) s'
  | packed {archive : Path} {contents : List Content} {s' : Store}
      (named : dir.archive s.locate = .ok archive) (begun : contents ≠ [])
      (writes : Writes s (contents.map (archive, ·)) s') : Packs s dir (.ok archive) s'

theorem fill_goes {archive dir : Path} {done : List (Text × Content)} {names : Place}
    {rest : List Place} {content : Content} {answer : Except Failure Unit}
    (read : s.memberAt { dir with parts := dir.parts ++ names } (Text.joinWith "/" names) =
      .ok content)
    (wrote : s.write archive (.archive (done ++ [(Text.joinWith "/" names, content)])) = .ok s₁)
    (later : Task.Ends (fill archive dir (done ++ [(Text.joinWith "/" names, content)]) rest) s₁
      answer s') : Task.Ends (fill archive dir done (names :: rest)) s answer s' := by
  rw [fill]
  refine (Task.ends_world s).bind ?_
  simp only [read, wrote]
  exact (Task.ends_become s s₁).bind later

theorem fill_step (archive dir : Path) (done : List (Text × Content)) (names : Place)
    (rest : List Place) (s : Store) :
    Task.Halts (fill archive dir done (names :: rest)) s ∨
    ∃ content s',
      s.memberAt { dir with parts := dir.parts ++ names } (Text.joinWith "/" names) = .ok content ∧
      s.write archive (.archive (done ++ [(Text.joinWith "/" names, content)])) = .ok s' := by
  have world : Task.Ends (Task.world : Task Store Store) s _ s := Task.ends_world s
  cases read : s.memberAt { dir with parts := dir.parts ++ names } (Text.joinWith "/" names) with
  | error f =>
    refine .inl ?_
    rw [fill]
    refine world.halts ?_
    rw [read]
    cases f <;> exact Task.halts_fail _ s
  | ok content =>
    cases wrote : s.write archive (.archive (done ++ [(Text.joinWith "/" names, content)])) with
    | ok s' => exact .inr ⟨content, s', rfl, wrote⟩
    | error fault =>
      refine .inl ?_
      rw [fill]
      refine world.halts ?_
      simp only [read, wrote]
      cases fault <;> exact Task.halts_fail _ s

theorem fill_ends (archive dir : Path) (names : List Place) (done : List (Text × Content))
    (s : Store) : ∃ answer s', ∃ contents : List Content,
      Task.Ends (fill archive dir done names) s answer s' ∧
        Writes s (contents.map (archive, ·)) s' := by
  induction names generalizing done s with
  | nil => exact ⟨.ok (), s, [], Task.ends_pure () s, .nil s⟩
  | cons names rest ih =>
    rcases fill_step archive dir done names rest s with
      ⟨f, halts⟩ | ⟨content, s₁, read, wrote⟩
    · exact ⟨_, s, [], halts, .nil s⟩
    · obtain ⟨answer, s', contents, ends, writes⟩ := ih _ s₁
      exact ⟨answer, s', _ :: contents, fill_goes read wrote ends, .cons wrote writes⟩

section Package

variable {archive : Path} {listed : List Place}

theorem package_goes {answer : Except Failure Unit} (collected : s.collect dir = .ok listed)
    (named : dir.archive s.locate = .ok archive)
    (wrote : s.write archive (.archive []) = .ok s₁)
    (filled : Task.Ends (fill archive dir [] listed) s₁ answer s') :
    Task.Ends (package dir) s (answer.map fun _ => archive) s' := by
  unfold package
  refine (Task.ends_world s).bind ((Task.ends_ofExcept collected s).bind ?_)
  refine (Task.ends_ofExcept named s).bind ?_
  simp only [wrote]
  refine (Task.ends_become s s₁).bind ?_
  cases answer with
  | error f => exact filled.halt
  | ok _ => exact filled.bind ((Task.ends_say _ _ _ s').bind (Task.ends_pure archive s'))

theorem package_begins (s : Store) (dir : Path) : Task.Halts (package dir) s ∨
    ∃ listed archive s₁, s.collect dir = .ok listed ∧ dir.archive s.locate = .ok archive ∧
      s.write archive (.archive []) = .ok s₁ := by
  have world : Task.Ends (Task.world : Task Store Store) s _ s := Task.ends_world s
  cases collected : s.collect dir with
  | error f => exact .inl (world.halts ⟨f, (Task.ends_ofExcept collected s).halt⟩)
  | ok listed =>
    have collected := Task.ends_ofExcept collected s
    cases named : dir.archive s.locate with
    | error f => exact .inl (world.halts (collected.halts ⟨f, (Task.ends_ofExcept named s).halt⟩))
    | ok archive =>
      cases wrote : s.write archive (.archive []) with
      | ok s₁ => exact .inr ⟨listed, archive, s₁, rfl, rfl, wrote⟩
      | error fault =>
        refine .inl (world.halts (collected.halts ((Task.ends_ofExcept named s).halts ?_)))
        simp only [wrote]
        cases fault <;> exact Task.halts_fail _ s

theorem package_ends (s : Store) (dir : Path) :
    ∃ answer s', Task.Ends (package dir) s answer s' ∧ s.Packs dir answer s' := by
  rcases s.package_begins dir with ⟨f, halts⟩ | ⟨listed, archive, s₁, collected, named, wrote⟩
  · exact ⟨.error f, s, halts, .refused⟩
  obtain ⟨answer, s', contents, filled, writes⟩ := fill_ends archive dir listed [] s₁
  have writes : Writes s ((.archive [] :: contents).map (archive, ·)) s' := .cons wrote writes
  refine ⟨_, s', package_goes collected named wrote filled, ?_⟩
  cases answer with
  | error f => exact .stopped named writes
  | ok _ => exact .packed named (List.cons_ne_nil _ _) writes

theorem package_eq_ok_iff : Task.Ends (package dir) s (.ok archive) s' ↔
    ∃ listed s₁, s.collect dir = .ok listed ∧ dir.archive s.locate = .ok archive ∧
      s.write archive (.archive []) = .ok s₁ ∧
      Task.Ends (fill archive dir [] listed) s₁ (.ok ()) s' := by
  constructor
  · intro packed
    rcases s.package_begins dir with halts | ⟨listed, archive', s₁, collected, named, wrote⟩
    · exact absurd packed halts.not_ok
    obtain ⟨answer, s'', -, filled, -⟩ := fill_ends archive' dir listed [] s₁
    obtain ⟨same, rfl⟩ := packed.unique (package_goes collected named wrote filled)
    cases answer with
    | error f => cases same
    | ok _ =>
      cases same
      exact ⟨listed, s₁, collected, named, wrote, filled⟩
  · rintro ⟨listed, s₁, collected, named, wrote, filled⟩
    exact package_goes collected named wrote filled

theorem package_writes (packed : Task.Ends (package dir) s (.ok archive) s') :
    ∃ contents : List Content, Writes s (contents.map (archive, ·)) s' := by
  obtain ⟨answer, s'', ends, packs⟩ := s.package_ends dir
  obtain ⟨rfl, rfl⟩ := packed.unique ends
  cases packs with
  | packed _ _ writes => exact ⟨_, writes⟩

end Package

end Packing

variable [Schema]

/-- How a split can go, with the store that it leaves. -/
inductive Course (s : Store) (input : Path) (options : Options) : Outcome → Store → Prop
  | misled {f : Failure} (refused : options.resolve s.locate input = .error f) :
      Course s input options (.failed .validating f) s
  | unread {config : Config} {f : Failure} (resolved : options.resolve s.locate input = .ok config)
      (unread : s.load input = .error f) : Course s input options (.failed .validating f) s
  | unwritten {config : Config} {document : Document} {f : Failure} {s' : Store}
      (resolved : options.resolve s.locate input = .ok config)
      (loaded : s.load input = .ok document)
      (emits : s.Emits config (.ofText document.text config.extractAll) (.error f) s') :
      Course s input options (.failed .emitting f) s'
  | written {config : Config} {document : Document} {files : Manifest} {s' : Store}
      (resolved : options.resolve s.locate input = .ok config)
      (loaded : s.load input = .ok document)
      (emits : s.Emits config (.ofText document.text config.extractAll) (.ok files) s')
      (unasked : config.createZip = false) : Course s input options (.done files) s'
  | unpacked {config : Config} {document : Document} {files : Manifest} {f : Failure}
      {s₁ s' : Store} (resolved : options.resolve s.locate input = .ok config)
      (loaded : s.load input = .ok document)
      (emits : s.Emits config (.ofText document.text config.extractAll) (.ok files) s₁)
      (asked : config.createZip = true) (packs : s₁.Packs config.outputDir (.error f) s')
      (ran : Task.Ends (package config.outputDir) s₁ (.error f) s') :
      Course s input options (.failed .packaging f) s'
  | packed {config : Config} {document : Document} {files : Manifest} {archive : Path}
      {s₁ s' : Store} (resolved : options.resolve s.locate input = .ok config)
      (loaded : s.load input = .ok document)
      (emits : s.Emits config (.ofText document.text config.extractAll) (.ok files) s₁)
      (asked : config.createZip = true) (packs : s₁.Packs config.outputDir (.ok archive) s')
      (ran : Task.Ends (package config.outputDir) s₁ (.ok archive) s') :
      Course s input options (.done { files with archivePath := some archive }) s'

namespace Course

variable {config : Config} {outcome : Outcome}

theorem of_unread {f : Failure} (course : s.Course input options outcome s')
    (resolved : options.resolve s.locate input = .ok config) (unread : s.load input = .error f) :
    outcome = .failed .validating f := by
  cases course with
  | misled refused =>
    rw [resolved] at refused
    cases refused
  | unread _ unread' =>
    rw [unread] at unread'
    cases unread'
    rfl
  | unwritten _ loaded | written _ loaded | unpacked _ loaded | packed _ loaded =>
    rw [unread] at loaded
    cases loaded

theorem of_loaded {document : Document} (course : s.Course input options outcome s')
    (resolved : options.resolve s.locate input = .ok config)
    (loaded : s.load input = .ok document) :
    outcome.answer.failedStage ≠ some .validating := by
  cases course with
  | misled refused =>
    rw [resolved] at refused
    cases refused
  | unread _ unread =>
    rw [loaded] at unread
    cases unread
  | unwritten | written | unpacked | packed => exact nofun

end Course

section Run

variable {config : Config} {document : Document} {files : Manifest}

theorem pack_ends (resolved : options.resolve s.locate input = .ok config)
    (loaded : s.load input = .ok document)
    (emits : s.Emits config (.ofText document.text config.extractAll) (.ok files) s₁) :
    ∃ result s', Task.Ends (do return (document, ← Split.pack stages config files)) s₁ result s' ∧
      s.Course input options (settled (Split.outcome result)) s' := by
  unfold Split.pack
  cases asked : config.createZip with
  | false =>
    exact ⟨_, s₁, Task.ends_pure (document, files) s₁, .written resolved loaded emits asked⟩
  | true =>
    obtain ⟨answer, s', ran, packs⟩ := s₁.package_ends config.outputDir
    have entering := Split.ends_entering Empty .packaging [] s₁
    have packed := Split.ends_during .packaging .coroutine ran
    cases answer with
    | error f =>
      exact ⟨.error (.packaging, .told f), s', (entering.bind packed.halt).halt,
        .unpacked resolved loaded emits asked packs ran⟩
    | ok archive =>
      exact ⟨.ok (document, { files with archivePath := some archive }), s',
        (entering.bind (packed.bind (Task.ends_pure { files with archivePath := some archive } s')))
          |>.bind (Task.ends_pure _ s'),
        .packed resolved loaded emits asked packs ran⟩

theorem loaded_ends (resolved : options.resolve s.locate input = .ok config)
    (loaded : s.load input = .ok document) :
    ∃ result s', Task.Ends (do
        Split.entering .extracting (" chars=" ++ Text.ofNat document.text.length)
        let assets ← Split.during .extracting .call (stages.extract document.text config.extractAll)
        Split.entering .emitting (" output_dir=" ++ config.outputDir.toText)
        let files ← Split.during .emitting .coroutine
          (stages.emit assets config.outputDir (config.appName.getD Path.defaultAppName)
            config.appVersion)
        return (document, ← Split.pack stages config files)) s result s' ∧
      s.Course input options (settled (Split.outcome result)) s' := by
  have extracting := Split.ends_entering Empty .extracting
    (" chars=" ++ Text.ofNat document.text.length) s
  have extracted := Split.ends_during .extracting .call
    (extract_ends document.text config.extractAll s)
  have emitting := Split.ends_entering Empty .emitting (" output_dir=" ++ config.outputDir.toText) s
  obtain ⟨answer, s₁, emitted, emits⟩ :=
    s.emit_ends config (.ofText document.text config.extractAll)
  have emitted := Split.ends_during .emitting .coroutine emitted
  cases answer with
  | error f =>
    exact ⟨.error (.emitting, .told f), s₁,
      extracting.bind (extracted.bind (emitting.bind emitted.halt)),
      .unwritten resolved loaded emits⟩
  | ok files =>
    obtain ⟨result, s', packed, course⟩ := pack_ends resolved loaded emits
    exact ⟨result, s', extracting.bind (extracted.bind (emitting.bind (emitted.bind packed))),
      course⟩

theorem run_ends (s : Store) (input : Path) (options : Options) :
    ∃ result s', Task.Ends (Split.run stages s.locate input options) s result s' ∧
      s.Course input options (settled (Split.outcome result)) s' := by
  have entering := Split.ends_entering Empty .validating (" input=" ++ input.toText) s
  have resolving : Task.Ends (Split.resolving s.locate input options : Split.Staged Empty Store _) s
      _ s := Task.ends_ofExcept rfl s
  have validated : Task.Ends (Split.validating stages input : Split.Staged Empty Store _) s _ s :=
    Split.ends_waiting (s.validate_ends input)
  have read : Task.Ends (Split.reading stages input : Split.Staged Empty Store _) s _ s :=
    Split.ends_waiting (s.read_ends input)
  unfold Split.run
  cases resolved : options.resolve s.locate input with
  | error f =>
    rw [resolved] at resolving
    exact ⟨_, s, entering.bind resolving.halt, .misled resolved⟩
  | ok config =>
    rw [resolved] at resolving
    obtain ⟨same, -⟩ := Options.resolve_paths resolved
    subst same
    rcases s.load_cases config.inputPath with ⟨f, invalid, loaded⟩ | ⟨valid, loaded⟩
    · rw [invalid] at validated
      exact ⟨_, s, entering.bind (resolving.bind validated.halt), .unread resolved loaded⟩
    · rw [valid] at validated
      cases page : s.readPage config.inputPath with
      | error f =>
        rw [page] at read loaded
        exact ⟨_, s, entering.bind (resolving.bind (validated.bind read.halt)),
          .unread resolved loaded⟩
      | ok document =>
        rw [page] at read loaded
        obtain ⟨result, s', ends, course⟩ := loaded_ends resolved loaded
        exact ⟨result, s', entering.bind (resolving.bind (validated.bind (read.bind ends))), course⟩

end Run

theorem splitFile_course (s : Store) (input : Path) (options : Options) :
    s.Course input options (s.splitFile input options).1 (s.splitFile input options).2.world := by
  obtain ⟨result, s', ends, course⟩ := s.run_ends input options
  obtain ⟨log, ran⟩ := ends []
  obtain ⟨log', told⟩ := Split.split_run ran
  have answered : s.splitFile input options =
      (settled (Split.outcome result), ⟨s', log'⟩) := by
    unfold splitFile
    rw [told]
    rfl
  rw [answered]
  exact course

end Store

end Unbundle
