import Unbundle.Proofs.Split.Again
import Unbundle.Proofs.Store.Locating

namespace Unbundle

namespace Path

variable {p input : Path} {word : Text}

theorem rootOf_plain (plain : separator ∉ word) : rootOf word = .relative := by
  have none : word.takeWhile (· == separator) = [] := by
    cases word with
    | nil => rfl
    | cons s rest =>
      have other : (s == separator) = false := by
        simpa using fun same : s = separator => plain (same ▸ List.mem_cons_self)
      rw [List.takeWhile_cons, other]
      rfl
  rw [rootOf, none]
  rfl

theorem steps_plain (plain : separator ∉ word) :
    steps word = if word = [] ∨ word = "." then [] else [word] := by
  rw [steps, Text.splitOn_plain plain]
  by_cases dot : word = [] ∨ word = "."
  · rw [if_pos dot]
    rcases dot with rfl | rfl <;> rfl
  · rw [if_neg dot]
    simpa [not_or] using dot

theorem join_plain (plain : separator ∉ word) :
    p.join word = { p with parts := p.parts ++ if word = [] ∨ word = "." then [] else [word] } := by
  unfold join
  rw [rootOf_plain plain, steps_plain plain]

theorem stemOf_subset (name : Text) : stemOf name ⊆ name := by
  unfold stemOf
  dsimp only
  split
  · exact List.Subset.refl name
  · exact List.take_subset _ _

theorem stemOf_ne_nil {name : Text} (some : name ≠ []) : stemOf name ≠ [] := by
  unfold stemOf
  dsimp only
  split
  · exact some
  · rename_i suffixed
    simp only [Bool.or_eq_true, decide_eq_true_eq, not_or] at suffixed
    intro none
    have size := congrArg List.length none
    rw [List.length_take, List.length_nil] at size
    omega

theorem parts_named (some : p.name ≠ []) : p.parts = p.parent.parts ++ [p.name] :=
  (congrArg Path.parts (parent_child some)).symm

theorem name_mem (some : p.name ≠ []) : p.name ∈ p.parts :=
  parts_named some ▸ List.mem_append_right _ (List.mem_singleton_self _)

/-- The output stands beside the page under another name, or else it is the directory of the page.
    That happens if there is nothing but a dot in front of the suffix. -/
theorem defaultOutput_beside (proper : input.Proper) (some : input.name ≠ []) :
    (input.stem = "." ∧ input.defaultOutput = input.parent) ∨
      ∃ name, name ≠ input.name ∧ input.defaultOutput = input.parent.child name := by
  have plain := (proper _ (name_mem some)).2
  unfold defaultOutput
  split
  · have plain : separator ∉ input.name ++ "-app" := by
      rw [List.mem_append, not_or]
      exact ⟨plain, by decide⟩
    have longer : ¬ ((input.name ++ "-app" : Text) = [] ∨ (input.name ++ "-app" : Text) = ".") := by
      rintro (none | dot)
      · simpa using congrArg List.length none
      · simpa using congrArg List.length dot
    refine .inr ⟨input.name ++ "-app", fun same => ?_, ?_⟩
    · simpa using congrArg List.length same
    · rw [join_plain plain, if_neg longer, child]
  · rename_i suffixed
    have plain : separator ∉ input.stem := fun member => plain (stemOf_subset _ member)
    have nonempty : input.stem ≠ [] := stemOf_ne_nil some
    rw [join_plain plain]
    by_cases dot : input.stem = "."
    · refine .inl ⟨dot, ?_⟩
      rw [if_pos (.inr dot), List.append_nil]
    · refine .inr ⟨input.stem, suffixed, ?_⟩
      rw [if_neg (not_or.mpr ⟨nonempty, dot⟩), child]

theorem not_leadsTo_defaultOutput (proper : input.Proper) (some : input.name ≠ []) :
    ¬ input.LeadsTo input.defaultOutput := by
  have parts := parts_named some
  rintro ⟨-, above⟩
  rcases defaultOutput_beside proper some with ⟨-, output⟩ | ⟨name, other, output⟩
  · have shorter := above.length_le
    rw [output, parts, List.length_append, List.length_singleton] at shorter
    omega
  · rw [output, child, parts] at above
    have same := above.eq_of_length (by simp)
    exact other (List.cons.inj (List.append_cancel_left same)).1.symm

theorem child_defaultOutput_ne (proper : input.Proper) (some : input.name ≠ []) {name : Text}
    (stem : stemOf name ≠ ".") : input.defaultOutput.child name ≠ input := by
  intro same
  rcases defaultOutput_beside proper some with ⟨dot, output⟩ | ⟨beside, -, output⟩
  · refine stem ?_
    rw [← name_child input.defaultOutput name, same]
    exact dot
  · have size := congrArg (List.length ∘ Path.parts) same
    have parts := congrArg List.length (parts_named some)
    simp only [Function.comp, output, child, List.length_append, List.length_singleton]
      at size parts
    omega

end Path

/-- A name that an archive can have. -/
def IsArchiveName (name : Text) : Prop := ∃ base, Store.IsName base ∧ name = base ++ ".zip"

namespace Store

variable {s s₁ s' : Store} {input : Path} {options : Options} {outcome : Outcome} {config : Config}
  {assets : Assets} {files : Manifest}

theorem named_names {dir : Path} (formed : s.Formed) (proper : input.Proper)
    (named : input.named s.locate = .ok dir) (some : dir.name ≠ []) : IsName dir.name := by
  have last := Path.name_mem some
  unfold Path.named at named
  split at named
  · exact (locate_names formed proper named).2 _ last
  · rename_i nameful
    cases named
    have ordinary := Bool.not_eq_true _ ▸ nameful
    exact ⟨(proper _ last).1, (Path.name_of_ordinary ordinary).2⟩

theorem ordinary_child {dir : Path} {name : Text} (isName : IsName name) :
    (dir.child name).isNameless = false := by
  rw [Path.isNameless, Path.name_child, Bool.or_eq_false_iff]
  exact ⟨by simpa using fun none => isName.named (.inl none), by simpa using isName.notUp⟩

/-- The archive of the output is the page exactly if the page has the name of an archive. -/
theorem archive_defaultOutput (formed : s.Formed) (proper : input.Proper) (some : input.name ≠ []) :
    input.defaultOutput.archive s.locate = .ok input ↔ IsArchiveName input.name := by
  constructor
  · intro named
    obtain ⟨dir, found, some, same⟩ := Path.archive_named named
    refine ⟨dir.name, named_names formed proper.defaultOutput found some, ?_⟩
    rw [Path.withName] at same
    exact (congrArg Path.name same).trans (Path.name_child _ _)
  · rintro ⟨base, isName, name⟩
    have stem : input.stem = base := by
      rw [Path.stem, name, Path.stemOf_zip fun none => isName.named (.inl none)]
    have suffixed : input.stem ≠ input.name := by
      rw [stem, name]
      simp
    have plain : Path.separator ∉ base := by
      have plain := (proper _ (Path.name_mem some)).2
      rw [name, List.mem_append, not_or] at plain
      exact plain.1
    have output : input.defaultOutput = input.parent.child base := by
      rw [Path.defaultOutput, if_neg suffixed, stem, Path.join_plain plain, if_neg isName.named,
        Path.child]
    have ordinary : input.defaultOutput.isNameless = false := by
      rw [output]
      exact ordinary_child isName
    rw [Path.archive_of_named (Path.named_of_ordinary ordinary) (Path.name_of_ordinary ordinary).1,
      output, Path.name_child, Path.withName, Path.parent_of_child, ← name, Path.parent_child some]

theorem Emits.formed {answer : Except Failure Manifest} (emits : s.Emits config assets answer s')
    (formed : s.Formed) (proper : config.outputDir.Proper) : s'.Formed := by
  have made := formed.makeDirs proper
  cases emits with
  | unmade => exact made
  | stopped _ planned writes _ =>
    refine writes.formed made fun q member => plan_proper proper assets q ?_
    rw [planned, List.map_append, List.map_append]
    exact List.mem_append_left _ member
  | written _ writes => exact writes.formed made (plan_proper proper assets)

theorem Course.writes [Schema] (formed : s.Formed)
    (proper : (options.outputDir.getD input.defaultOutput).Proper)
    (course : s.Course input options outcome s') : s' = s ∨
    ∃ config ws, options.resolve s.locate input = .ok config ∧
      Writes (s.makeDirs config.outputDir).1 ws s' ∧
      ∀ p ∈ ws.map Prod.fst, (∃ name ∈ Manifest.names, p = config.outputDir.child name) ∨
        config.createZip = true ∧
          ∃ t : Store, t.Formed ∧ config.outputDir.archive t.locate = .ok p := by
  cases course with
  | misled | unread => exact .inl rfl
  | @unwritten config _ _ _ resolved _ emits | @written config _ _ _ resolved _ emits =>
    obtain ⟨ws, writes, named⟩ := emits.writes
    exact .inr ⟨config, ws, resolved, writes, fun p member => .inl (named p member)⟩
  | @unpacked config _ _ _ t _ resolved _ emits asked packs _
  | @packed config _ _ _ t _ resolved _ emits asked packs _ =>
    obtain ⟨ws, writes, named⟩ := emits.writes
    obtain ⟨ws', writes', archived⟩ := packs.writes
    have formed' := emits.formed formed ((Options.resolve_paths resolved).2 ▸ proper)
    refine .inr ⟨config, ws ++ ws', resolved, writes.append writes', fun p member => ?_⟩
    rw [List.map_append] at member
    rcases List.mem_append.mp member with file | archive
    · exact .inl (named p file)
    · exact .inr ⟨asked, t, formed', archived p archive⟩

theorem Course.archived [Schema] {p : Path} (formed : s.Formed)
    (proper : (options.outputDir.getD input.defaultOutput).Proper)
    (course : s.Course input options (.done files) s') (listed : files.archivePath = some p) :
    ∃ t : Store, t.Formed ∧
      (options.outputDir.getD input.defaultOutput).archive t.locate = .ok p := by
  cases course with
  | written _ _ emits =>
    cases emits
    cases listed
  | @packed config _ _ _ t _ resolved _ emits _ packs =>
    cases listed
    rw [← (Options.resolve_paths resolved).2] at proper ⊢
    cases packs with
    | packed named => exact ⟨t, emits.formed formed proper, named⟩

theorem stem_of_mem {name : Text} (member : name ∈ Manifest.names) : Path.stemOf name ≠ "." := by
  have all : ∀ name ∈ Manifest.names, Path.stemOf name ≠ "." := by decide
  exact all name member

section Outputless

theorem output_of_outputless [Schema] {locate : Locate} (outputless : options.outputDir = none)
    (resolved : options.resolve locate input = .ok config) :
    config.outputDir = input.defaultOutput := by
  rw [(Options.resolve_paths resolved).2, outputless]
  rfl

theorem proper_of_outputless (proper : input.Proper) (outputless : options.outputDir = none) :
    (options.outputDir.getD input.defaultOutput).Proper := by
  rw [outputless]
  exact proper.defaultOutput

variable [Schema] (formed : s.Formed) (proper : input.Proper)
  (some : input.name ≠ []) (outputless : options.outputDir = none)

include formed proper some outputless

theorem Course.writes_page (course : s.Course input options outcome s') : s' = s ∨
    ∃ config ws, options.resolve s.locate input = .ok config ∧
      Writes (s.makeDirs config.outputDir).1 ws s' ∧
      (input ∈ ws.map Prod.fst → config.createZip = true ∧ IsArchiveName input.name) := by
  have proper' := proper_of_outputless proper outputless
  rcases course.writes formed proper' with same | ⟨config, ws, resolved, writes, written⟩
  · exact .inl same
  · refine .inr ⟨config, ws, resolved, writes, fun member => ?_⟩
    rw [output_of_outputless outputless resolved] at written
    rcases written input member with ⟨name, named, same⟩ | ⟨asked, t, formed, named⟩
    · exact absurd same.symm (Path.child_defaultOutput_ne proper some (stem_of_mem named))
    · exact ⟨asked, (archive_defaultOutput formed proper some).mp named⟩

theorem Course.lists_page_iff (course : s.Course input options (.done files) s') :
    ∃ config, options.resolve s.locate input = .ok config ∧
      (input ∈ files.paths ↔ config.createZip = true ∧ IsArchiveName input.name) := by
  have proper' := proper_of_outputless proper outputless
  have archived {p : Path} (listed : files.archivePath = .some p) :
      ∃ t : Store, t.Formed ∧ input.defaultOutput.archive t.locate = .ok p := by
    have archived := course.archived formed proper' listed
    rwa [outputless] at archived
  obtain ⟨config, document, packings, resolved, loaded, delivery⟩ := course.delivery
  refine ⟨config, resolved, ?_⟩
  constructor
  · intro listed
    rw [delivery.listed, List.mem_append] at listed
    rcases listed with planned | archive
    · obtain ⟨name, named, same⟩ := name_of_mem planned
      rw [output_of_outputless outputless resolved] at same
      exact absurd same.symm (Path.child_defaultOutput_ne proper some (stem_of_mem named))
    · have archive := Option.mem_toList.mp archive
      obtain ⟨t, formed, named⟩ := archived archive
      refine ⟨?_, (archive_defaultOutput formed proper some).mp named⟩
      rw [← delivery.asked, archive]
      rfl
  · rintro ⟨asked, archival⟩
    rw [← delivery.asked] at asked
    obtain ⟨p, listed⟩ := Option.isSome_iff_exists.mp asked
    obtain ⟨t, formed, named⟩ := archived listed
    have same := (archive_defaultOutput formed proper some).mpr archival
    obtain rfl := Except.ok.inj (same.symm.trans named)
    rw [delivery.listed, listed]
    exact List.mem_append_right _ List.mem_cons_self

end Outputless

/-- Without an output directory of its own a split writes no file over the page, and makes no
    directory there, but for one case: the archive takes the place of a page that has the name of an
    archive. -/
theorem splitFile_spares [Schema] (formed : s.Formed) (proper : input.Proper)
    (ordinary : input.isNameless = false) (outputless : options.outputDir = none) :
    (∀ config, options.resolve s.locate input = .ok config →
      ¬ input.LeadsTo config.outputDir ∧
      (∀ name ∈ Manifest.names, config.outputDir.child name ≠ input) ∧
      ∀ t : Store, t.Formed →
        (config.outputDir.archive t.locate = .ok input ↔ IsArchiveName input.name)) ∧
    ((s.splitFile input options).2.world = s ∨
      ∃ config ws, options.resolve s.locate input = .ok config ∧
        Writes (s.makeDirs config.outputDir).1 ws (s.splitFile input options).2.world ∧
        (input ∈ ws.map Prod.fst → config.createZip = true ∧ IsArchiveName input.name)) ∧
    ∀ files, (s.splitFile input options).1 = .done files →
      ∃ config, options.resolve s.locate input = .ok config ∧
        (input ∈ files.paths ↔ config.createZip = true ∧ IsArchiveName input.name) := by
  have some := (Path.name_of_ordinary ordinary).1
  have course := s.splitFile_course input options
  refine ⟨fun config resolved => ?_, ?_, fun files done => ?_⟩
  · rw [output_of_outputless outputless resolved]
    exact ⟨Path.not_leadsTo_defaultOutput proper some,
      fun name named => Path.child_defaultOutput_ne proper some (stem_of_mem named),
      fun t formed => archive_defaultOutput formed proper some⟩
  · exact course.writes_page formed proper some outputless
  · rw [done] at course
    exact course.lists_page_iff formed proper some outputless

open Coercion in
theorem splitFile_spares_of_styledDesk : styledDesk.Formed ∧ desk.page.Proper ∧
    desk.page.isNameless = false ∧ desk.zipping.outputDir = none ∧
    desk.zipConfig.outputDir ≠ desk.page ∧
    ∃ files, (styledDesk.splitFile desk.page desk.zipping).1 = .done files ∧
      files.archivePath = some desk.zipPath ∧ desk.page ∉ files.paths := by
  have proper : desk.page.Proper := by decide
  have other : ¬ IsArchiveName desk.page.name := by
    rintro ⟨base, -, name⟩
    exact absurd (congrArg List.getLast? name) (by simp [desk.page, Path.name])
  obtain ⟨apart, -, listed⟩ :=
    splitFile_spares (desk_formed _) proper (by decide) (rfl : desk.zipping.outputDir = none)
  obtain ⟨above, -, -⟩ := apart desk.zipConfig rfl
  obtain ⟨config, -, listed⟩ := listed _ (desk_zips _)
  refine ⟨desk_formed _, proper, by decide, rfl, fun same => ?_, _, desk_zips _, rfl,
    fun member => other (listed.mp member).2⟩
  exact above (same ▸ ⟨rfl, List.prefix_refl _⟩)

def zipDesk : Store := ⟨[(["p.zip"], .file (.bytes []) none)], []⟩

def zipDesk.ready : Store := ⟨[(["p.zip"], .file (.bytes []) none), (["p"], .dir)], []⟩

theorem zipDesk_linkless : zipDesk.Linkless :=
  linkless_of_entries (by simp [zipDesk])

theorem zipDesk_formed : zipDesk.Formed :=
  formed_of_entries (List.nodup_singleton _) (by decide) (by simp [zipDesk, node?])
    (by simp [zipDesk])

theorem zipDesk_entry : zipDesk.entry desk.zipPath = .ok (["p.zip"], .file (.bytes []) none) :=
  entry_name (by decide) rfl rfl (by decide) rfl (Node.file_solid _ _)

theorem zipDesk_makeDirs : zipDesk.makeDirs desk.output = (zipDesk.ready, none) := by
  have looked : zipDesk.lookup .keepLink desk.output = .ok (.vacant [] "p") :=
    lookup_free (by decide) rfl rfl (by decide) rfl
  rw [makeDirs, makeDir, looked]
  rfl

def zipDesk.resolved : Config := { desk.zipConfig with inputPath := desk.zipPath }

theorem zipDesk_ready_entry : zipDesk.ready.entry desk.output = .ok (["p"], .dir) :=
  entry_name (by decide) rfl rfl (by decide) rfl Node.dir_solid

theorem zipDesk_rewritable (grows : zipDesk.ready.Grows s) (content : Content) :
    ∃ s', s.write desk.zipPath content = .ok s' := by
  have looked : zipDesk.ready.lookup .create desk.zipPath =
      .ok (.found ["p.zip"] (.file (.bytes []) none)) :=
    lookup_name (by decide) rfl rfl (by decide) rfl (Node.file_solid _ _)
  have page : zipDesk.ready.node? ["p.zip"] = some (.file (.bytes []) none) := rfl
  obtain ⟨old, stands⟩ := (page ▸ grows.becomes ["p.zip"]).fresh
  exact ⟨_, write_file (grows.lookup_found looked (.inl rfl) stands (Node.file_solid _ _)) content⟩

open Coercion in
/-- The page is overwritten by the archive of its own output. -/
theorem splitFile_overwrites_page : zipDesk.Formed ∧ desk.zipPath.Proper ∧
    desk.zipPath.isNameless = false ∧ desk.zipping.outputDir = none ∧
    zipDesk.entry desk.zipPath = .ok (["p.zip"], .file (.bytes []) none) ∧
    ∃ files, (zipDesk.splitFile desk.zipPath desk.zipping).1 = .done files ∧
      files.archivePath = some desk.zipPath ∧ desk.zipPath ∈ files.paths := by
  have proper : desk.zipPath.Proper ∧ desk.output.Proper := by decide
  have resolved : desk.zipping.resolve zipDesk.locate desk.zipPath = .ok zipDesk.resolved := rfl
  have formed := zipDesk_formed.makeDirs proper.2
  have linkless := (zipDesk.makeDirs_touches desk.output).grows.linkless zipDesk_linkless
  rw [zipDesk_makeDirs] at formed linkless
  have empty : ∀ names : Place, names ≠ [] →
      zipDesk.ready.node? ((["p"] : Place) ++ names) = none := by
    intro names some
    obtain ⟨first, rest, rfl⟩ := List.exists_cons_of_ne_nil some
    rfl
  have opens : ∀ name ∈ Manifest.names, (desk.output.child name).Askable ∧
      zipDesk.ready.Open ((["p"] : Place) ++ [name]) :=
    fun name member => ⟨desk_askable name member, .inl rfl⟩
  obtain ⟨s₁, writes⟩ := plan_writes zipDesk.resolved zipDesk_ready_entry opens
    (.ofText (Utf8.decode []) false)
  obtain ⟨s₂, wrote⟩ := zipDesk_rewritable writes.touches.grows (.archive [])
  obtain ⟨s', packed⟩ := plan_packs zipDesk.resolved linkless zipDesk_ready_entry empty
    writes formed proper.2 (by decide) rfl wrote
  have written : Writes (zipDesk.makeDirs desk.output).1
      ((zipDesk.resolved.plan (.ofText (Utf8.decode []) false)).map encoded) s₁ := by
    rw [zipDesk_makeDirs]
    exact writes
  have done := ((zipDesk.splitFile_course desk.zipPath desk.zipping).of_package resolved
    (load_of_file zipDesk_entry (zipDesk_linkless.not_loops _)) rfl
    (congrArg Prod.snd zipDesk_makeDirs) written packed).1
  exact ⟨zipDesk_formed, proper.1, by decide, rfl, zipDesk_entry, _, done, rfl,
    List.mem_append_right _ List.mem_cons_self⟩

end Store

end Unbundle
