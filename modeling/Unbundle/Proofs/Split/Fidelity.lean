import Unbundle.Proofs.Assets.Settling
import Unbundle.Proofs.Split.Delivery
import Unbundle.Proofs.Text.Bytes

namespace Unbundle

namespace Plan

variable {p : Plan}

theorem chosen_nil {kind : Kind} (none : p.found kind = []) : p.chosen kind = [] := by
  rw [chosen, none, List.take_nil, ite_self]

theorem text_first {kind : Kind} {first : Block} {rest : List Block} (one : p.all = false)
    (found : p.found kind = first :: rest) : p.text? kind = some (first.inner p.page) := by
  rw [text?, chosen, found, one]
  rfl

end Plan

theorem Assets.markup_bare {page : Text}
    (bare : ∀ kind, (Markup.scan page).extractable kind = []) (all : Bool) :
    (ofText page all).markup = page := by
  have idle (kind : Kind) : (Plan.make page all).chosen kind = [] := Plan.chosen_nil (bare kind)
  refine Plan.markup_eq_page (Markup.scan_marks_wellFormed page) ?_
  rw [Plan.moved, idle, idle, List.append_nil]

theorem Assets.styleText_first {page : Text} {first : Block} {rest : List Block}
    (found : (Markup.scan page).extractable .style = first :: rest) :
    (ofText page false).styleText = some (first.inner page) :=
  Plan.text_first rfl found

theorem Block.WellFormed.bytes {page : Text} {b : Block} (formed : b.WellFormed page) :
    Utf8.encode page = Utf8.encode (page.take b.contentStart) ++
      Utf8.encode (b.inner page) ++ Utf8.encode (page.drop b.contentEnd) := by
  have parts : page.take b.contentStart ++ b.inner page ++ page.drop b.contentEnd = page := by
    rw [Block.inner, List.append_assoc, ← Text.slice_eq_drop page (Nat.le_refl page.length),
      Text.slice_append_slice page formed.content_le (formed.content_lt.le.trans formed.stop_le),
      Text.slice_eq_drop page (Nat.le_refl page.length), List.take_append_drop]
  rw [← Utf8.encode_append, ← Utf8.encode_append, parts]

namespace Store

variable {s s' : Store} {input : Path} {options : Options}

section Inspecting

variable {config : Config} {f : Failure}

theorem inspectFile_error_iff {all : Bool} :
    (s.inspectFile input all).1 = .error f ↔ s.load input = .error f := by
  rw [(s.inspectFile_eq input all).1]
  cases s.load input <;> simp [Except.map]

theorem inspectFile_ok_iff {all : Bool} {assets : Assets} :
    (s.inspectFile input all).1 = .ok assets ↔
      ∃ document, s.load input = .ok document ∧ assets = .ofText document.text all := by
  rw [(s.inspectFile_eq input all).1]
  cases s.load input <;> simp [Except.map, eq_comm]

theorem inspectFile_foretells [Schema] (resolved : options.resolve s.locate input = .ok config) :
    ((∃ f, (s.inspectFile input config.extractAll).1 = .error f) ↔
      (s.splitFile input options).1.answer.failedStage = some .validating) ∧
    (∀ f, (s.inspectFile input config.extractAll).1 = .error f →
      (s.splitFile input options).1.answer.errorTitle = some f.title ∧
      (s.splitFile input options).1.answer.error = some (f.title ++ ": " ++ f.message)) ∧
    (s.Linkless → ∀ assets files, (s.inspectFile input config.extractAll).1 = .ok assets →
      (s.splitFile input options).1 = .done files →
      Shows s (s.splitFile input options).2.world config.outputDir assets files.paths) := by
  have course := s.splitFile_course input options
  refine ⟨⟨?_, fun early => ?_⟩, fun f failed => ?_, fun linkless assets files inspected done => ?_⟩
  · rintro ⟨f, failed⟩
    rw [course.of_unread resolved (inspectFile_error_iff.mp failed)]
    rfl
  · cases loaded : s.load input with
    | error f => exact ⟨f, inspectFile_error_iff.mpr loaded⟩
    | ok document => exact absurd early (course.of_loaded resolved loaded)
  · rw [course.of_unread resolved (inspectFile_error_iff.mp failed)]
    exact ⟨rfl, rfl⟩
  · rw [done] at course
    obtain ⟨config', document, packings, resolved', loaded, delivery⟩ := course.delivery
    obtain rfl := Except.ok.inj (resolved.symm.trans resolved')
    obtain ⟨document', loaded', rfl⟩ := inspectFile_ok_iff.mp inspected
    obtain rfl := Except.ok.inj (loaded.symm.trans loaded')
    exact delivery.shows linkless

open Coercion in
theorem inspectFile_foretells_of_styledDesk :
    ({} : Options).resolve styledDesk.locate desk.page = .ok desk.resolved ∧
    styledDesk.Linkless ∧
    ∃ assets files, (styledDesk.inspectFile desk.page false).1 = .ok assets ∧
      (styledDesk.splitFile desk.page {}).1 = .done files ∧
      Shows styledDesk (styledDesk.splitFile desk.page {}).2.world desk.output assets
        files.paths :=
  ⟨desk_resolve _, desk_linkless _, _, _, desk_inspects _ false, desk_splits _,
    (inspectFile_foretells (desk_resolve _)).2.2 (desk_linkless _) _ _ (desk_inspects _ false)
      (desk_splits _)⟩

open Coercion in
/-- Inspecting finds a style and splitting succeeds, but where the stylesheet is to be there is a
    device and no file. -/
theorem inspectFile_misses_device :
    ({} : Options).resolve drainedDesk.locate desk.page = .ok desk.resolved ∧
    drainedDesk.Linkless ∧
    ∃ assets files, (drainedDesk.inspectFile desk.page false).1 = .ok assets ∧
      assets.styleText = some "p" ∧ (drainedDesk.splitFile desk.page {}).1 = .done files ∧
      ∀ place content time, (drainedDesk.splitFile desk.page {}).2.world.entry
        (desk.output.child "style.css") ≠ .ok (place, .file content time) := by
  have course := drainedDesk.splitFile_course desk.page {}
  rw [drainedDesk_splits] at course
  obtain ⟨config, document, packings, resolved, loaded, delivery⟩ := course.delivery
  refine ⟨rfl, drainedDesk_linkless, _, _,
    inspectFile_ok_iff.mpr ⟨_, drainedDesk_load, rfl⟩, by decide +kernel, drainedDesk_splits,
    fun place content time leads => ?_⟩
  rw [delivery.grows.entry_device drainedDesk_drains] at leads
  cases leads

end Inspecting

section Bytes

/-- A split has written bytes to a path, and later to the other listed paths only. So the bytes
    stand there at the end unless one of those leads to the same file, for which it takes a link. -/
structure Puts (s : Store) (p : Path) (data : List UInt8) (files : Manifest) (s' : Store) :
    Prop where
  listed : p ∈ files.paths
  wrote : ∃ s₁ s₂, s.Grows s₁ ∧ s₁.write p (.bytes data) = .ok s₂ ∧
    s₂.Touches s' (fun _ => False) (fun q => q ∈ files.paths ∧ q ≠ p)
  kept : s.Keeps s' p (.bytes data) ∨ ∃ q ∈ files.paths, q ≠ p ∧ s'.Meet p q
  linkless : s.Linkless → s.Keeps s' p (.bytes data)

theorem Delivery.puts {config : Config} {assets : Assets} {files : Manifest}
    {packings : List (Path × Content)} {p : Path} {t : Text}
    (delivery : s.Delivery config assets files packings s')
    (member : (p, t) ∈ config.plan assets) : s.Puts p (Utf8.encode t) files s' where
  listed := by
    rw [delivery.listed]
    exact List.mem_append_left _ (List.mem_map_of_mem member)
  wrote := delivery.writing member
  kept := by
    by_cases met : ∃ q ∈ files.paths, q ≠ p ∧ s'.Meet p q
    · exact .inr met
    · exact .inl (delivery.grows.keeps
        (delivery.took member fun q listed differ meet => met ⟨q, listed, differ, meet⟩))
  linkless linkless := delivery.keeps linkless member

theorem splitFile_keeps_bytes [Schema] (s : Store) (input : Path) :
    (∀ data : List UInt8, Utf8.encode (Utf8.decode data) = data) ∧
    (∀ t u : Text, Utf8.encode (t ++ u) = Utf8.encode t ++ Utf8.encode u) ∧
    (∀ place content time, s.entry input = .ok (place, .file content time) →
      (∀ document, s.readPage input = .ok document →
        Utf8.encode document.text = content.data) ∧
      (¬ s.Loops input → ∃ document, s.readPage input = .ok document)) ∧
    ∀ options files, (s.splitFile input options).1 = .done files →
      ∃ config place content time, options.resolve s.locate input = .ok config ∧
        s.entry input = .ok (place, .file content time) ∧
        ((∀ kind, (Markup.scan (Utf8.decode content.data)).extractable kind = []) →
          s.Puts (config.outputDir.child "index.html") content.data files
            (s.splitFile input options).2.world) ∧
        (config.extractAll = false → ∀ first rest,
          (Markup.scan (Utf8.decode content.data)).extractable .style = first :: rest →
          ∃ before inner after, content.data = before ++ inner ++ after ∧
            before = Utf8.encode ((Utf8.decode content.data).take first.contentStart) ∧
            inner = Utf8.encode (first.inner (Utf8.decode content.data)) ∧
            s.Puts (config.outputDir.child "style.css") inner files
              (s.splitFile input options).2.world) := by
  refine ⟨Utf8.encode_decode, Utf8.encode_append, fun place content time leads =>
    ⟨fun document read => ?_, fun whole => ⟨_, readPage_of_file leads whole⟩⟩,
    fun options files done => ?_⟩
  · rw [(readPage_text leads read).1, Utf8.encode_decode]
  have course := s.splitFile_course input options
  rw [done] at course
  obtain ⟨config, document, packings, resolved, loaded, delivery⟩ := course.delivery
  obtain ⟨place, content, time, leads, text⟩ := file_of_load loaded
  rw [text] at delivery
  refine ⟨config, place, content, time, resolved, leads, fun bare => ?_,
    fun one first rest found => ?_⟩
  · have member := delivery.puts (mem_plan.mpr (.inr (.inl ⟨rfl, rfl⟩)))
    rwa [Assets.markup_bare bare, Utf8.encode_decode] at member
  · rw [one] at delivery
    have formed := Markup.scan_marks_wellFormed (Utf8.decode content.data)
    have block : first ∈ (Markup.scan (Utf8.decode content.data)).blocks :=
      List.mem_of_mem_filter (found ▸ List.mem_cons_self)
    have bytes := (formed.blocks first block).bytes
    rw [Utf8.encode_decode] at bytes
    exact ⟨_, _, _, bytes, rfl, rfl,
      delivery.puts (mem_plan.mpr (.inl ⟨.style, Assets.styleText_first found, rfl⟩))⟩

open Coercion in
theorem splitFile_keeps_bytes_of_desk :
    (∃ files place, ((desk [0x3C, 0xFF, 0xC3]).splitFile desk.page {}).1 = .done files ∧
      ((desk [0x3C, 0xFF, 0xC3]).splitFile desk.page {}).2.world.entry
        (desk.output.child "index.html") = .ok (place, .file (.bytes [0x3C, 0xFF, 0xC3]) none)) ∧
    ∃ files place, (styledDesk.splitFile desk.page {}).1 = .done files ∧
      (styledDesk.splitFile desk.page {}).2.world.entry (desk.output.child "style.css") =
        .ok (place, .file (.bytes (Utf8.encode "p")) none) := by
  constructor
  · have bare : ∀ kind, (Markup.scan (Utf8.decode [0x3C, 0xFF, 0xC3])).extractable kind = [] := by
      rintro (_ | _) <;> decide +kernel
    obtain ⟨-, -, -, kept⟩ := splitFile_keeps_bytes (desk [0x3C, 0xFF, 0xC3]) desk.page
    obtain ⟨config, place, content, time, resolved, leads, index, -⟩ := kept {} _ (desk_splits _)
    obtain rfl := Except.ok.inj ((desk_resolve _).symm.trans resolved)
    cases (desk_entry _).symm.trans leads
    obtain ⟨there, file⟩ := ((index bare).linkless (desk_linkless _)).file (desk_no_device _)
    exact ⟨_, there, desk_splits _, file⟩
  · have inner : ((Markup.scan (Utf8.decode (Utf8.encode "<style>p</style>"))).extractable
        .style).map (·.inner (Utf8.decode (Utf8.encode "<style>p</style>"))) = ["p"] := by
      decide +kernel
    obtain ⟨first, rest, found, first_inner, -⟩ := List.map_eq_cons_iff.mp inner
    obtain ⟨-, -, -, kept⟩ := splitFile_keeps_bytes styledDesk desk.page
    obtain ⟨config, place, content, time, resolved, leads, -, style⟩ := kept {} _ (desk_splits _)
    obtain rfl := Except.ok.inj ((desk_resolve _).symm.trans resolved)
    cases (desk_entry _).symm.trans leads
    obtain ⟨_, _, _, -, -, rfl, puts⟩ := style rfl first rest found
    obtain ⟨there, file⟩ := (puts.linkless (desk_linkless _)).file (desk_no_device _)
    exact ⟨_, there, desk_splits _, first_inner ▸ file⟩

/-- A page without blocks, and an output directory in which a link leads from the entry script to
    the page's own file. -/
def linkedDesk : Store :=
  ⟨[(["p.html"], .file (.bytes [0x78]) none), (["p"], .dir),
    (["p", "main.js"], .link "index.html")], []⟩

def linkedDesk.files : Manifest := .planned (.ofText (Utf8.decode [0x78]) false) desk.output

def linkedDesk.script : Content := .bytes (Utf8.encode (Skeleton.entryScript "p"))

theorem linkedDesk_resolved : linkedDesk.resolved desk.page = ofPlace ["p.html"] := by
  have looked : linkedDesk.lookup .keepLink desk.page = .ok (.found ["p.html"] _) :=
    lookup_name (by decide) rfl rfl (by decide) rfl (Node.file_solid _ _)
  have plain : linkedDesk.linkAt ((start desk.page).child "p.html") = none := by
    change linkedDesk.linkAt desk.page = none
    rw [linkAt, looked]
  have settled : linkedDesk.settle linkedDesk.depthLimit [] (start desk.page) desk.page.parts =
      (desk.page, true) := settle_name _ (by decide) plain
  rw [resolved, settled]
  rfl

theorem linkedDesk_whole : ¬ linkedDesk.Loops desk.page := by
  rintro ⟨path, loop⟩
  have leads : linkedDesk.entry (ofPlace ["p.html"]) = .ok _ :=
    entry_name (by decide) rfl rfl (by decide) rfl (Node.file_solid _ _)
  rw [linkedDesk_resolved, leads] at loop
  cases loop

namespace linkedDesk

def page : Content := .bytes (Utf8.encode (Assets.ofText (Utf8.decode [0x78]) false).markup)

def paged : Store := linkedDesk.put ["p", "index.html"] (.file page none)

def scripted : Store := paged.put ["p", "index.html"] (.file script none)

theorem planned : (desk.resolved.plan (.ofText (Utf8.decode [0x78]) false)).map encoded =
    [(desk.output.child "index.html", page), (desk.output.child "main.js", script),
      (desk.output.child "package.json",
        .bytes (Utf8.encode (Skeleton.manifest "p" Config.defaultVersion)))] := by
  have style : (Assets.ofText (Utf8.decode [0x78]) false).styleText = none := by decide +kernel
  have script : (Assets.ofText (Utf8.decode [0x78]) false).scriptText = none := by decide +kernel
  simp only [Config.plan, Manifest.files, style, script]
  rfl

theorem enters {name : Text} {steps : List Text} (named : Enters .create name steps) :
    Enters .create ("p" : Text) (name :: steps) :=
  ⟨by decide, by decide, fun bare => named.named (.inl (List.cons.inj bare.2).1), by decide⟩

theorem writes_page : linkedDesk.write (desk.output.child "index.html") page = .ok paged := by
  have looked : linkedDesk.lookup .create (desk.output.child "index.html") =
      .ok (.vacant ["p"] "index.html") :=
    lookup_eq_ok_iff.mpr ⟨by decide, .down rfl (enters (by decide)) rfl Node.dir_solid
      (.free rfl (by decide) rfl)⟩
  rw [write, looked]
  rfl

theorem writes_script : paged.write (desk.output.child "main.js") script = .ok scripted := by
  have looked : paged.lookup .create (desk.output.child "main.js") =
      .ok (.found ["p", "index.html"] (.file page none)) := by
    refine lookup_eq_ok_iff.mpr ⟨by decide, ?_⟩
    refine .down rfl (enters (by decide)) rfl Node.dir_solid ?_
    refine .follow rfl (by decide) rfl (by decide) ?_
    exact .down rfl (by decide) rfl (Node.file_solid _ _) (.here rfl)
  exact write_file looked _

end linkedDesk

theorem linkedDesk_writes : ∃ s', Writes linkedDesk
    ((desk.resolved.plan (.ofText (Utf8.decode [0x78]) false)).map encoded) s' ∧
    s'.node? ["p", "index.html"] = some (.file linkedDesk.script none) := by
  have leads : linkedDesk.scripted.entry desk.output = .ok (["p"], .dir) :=
    entry_name (by decide) rfl rfl (by decide) rfl Node.dir_solid
  obtain ⟨s', manifest, -, kept⟩ := write_named leads (desk_askable "package.json" (by decide))
    (by decide) (.inl rfl) (.bytes (Utf8.encode (Skeleton.manifest "p" Config.defaultVersion)))
  rw [linkedDesk.planned]
  exact ⟨s', .cons linkedDesk.writes_page (.cons linkedDesk.writes_script
    (.cons manifest (.nil s'))), kept _ (by decide)⟩

open Coercion in
/-- Nothing is moved out of the page, and yet its file does not hold its bytes in the end: the entry
    script is written to the same place. -/
theorem splitFile_overwrites_index :
    (∀ kind, (Markup.scan (Utf8.decode [0x78])).extractable kind = []) ∧
    linkedDesk.entry desk.page = .ok (["p.html"], .file (.bytes [0x78]) none) ∧
    (linkedDesk.splitFile desk.page {}).1 = .done linkedDesk.files ∧
    (linkedDesk.splitFile desk.page {}).2.world.node? ["p", "index.html"] =
      some (.file linkedDesk.script none) ∧
    linkedDesk.script.data ≠ [0x78] := by
  have bare : ∀ kind, (Markup.scan (Utf8.decode [0x78])).extractable kind = [] := by
    rintro (_ | _) <;> decide +kernel
  have leads : linkedDesk.entry desk.page = .ok (["p.html"], .file (.bytes [0x78]) none) :=
    entry_name (by decide) rfl rfl (by decide) rfl (Node.file_solid _ _)
  have output : ∀ ending, linkedDesk.lookup ending desk.output = .ok (.found ["p"] .dir) := by
    intro ending
    exact lookup_name (by decide) rfl rfl ⟨by decide, by decide, by simp, by decide⟩ rfl
      Node.dir_solid
  have made : linkedDesk.makeDirs desk.output = (linkedDesk, none) :=
    makeDirs_found (output .keepLink) (entry_eq_ok_iff.mpr (output .followLink))
  have resolved : ({} : Options).resolve linkedDesk.locate desk.page = .ok desk.resolved := rfl
  obtain ⟨s', writes, overwritten⟩ := linkedDesk_writes
  have course := linkedDesk.splitFile_course desk.page {}
  have writes : Writes (linkedDesk.makeDirs desk.output).1
      ((desk.resolved.plan (.ofText (Utf8.decode [0x78]) false)).map encoded) s' := by
    rwa [made]
  obtain ⟨done, world⟩ := course.of_writes resolved (load_of_file leads linkedDesk_whole) rfl
    (congrArg Prod.snd made) writes
  refine ⟨bare, leads, done, world ▸ overwritten, ?_⟩
  decide +kernel

end Bytes

end Store

end Unbundle
