import Unbundle.Proofs.Split.Delivery

namespace Unbundle

def Failure.IsWriteError (f : Failure) (target : Path) : Prop :=
  f.title = "WriteError" ∧ ∃ r, f = .unwritable target r

namespace Store

variable {s s' : Store} {p : Path} {content : Content} {fault : PathFault}

section Faults

theorem failureAt_isWriteError (other : fault ≠ .nul) (target : Path) :
    (failureAt target fault).IsWriteError target := by
  cases fault with
  | nul => exact absurd rfl other
  | refused r => exact ⟨rfl, r, rfl⟩

theorem lookup_fault {ending : Ending} (noNul : ¬ p.hasNul)
    (failed : s.lookup ending p = .error fault) : fault ≠ .nul := by
  rintro rfl
  exact noNul (lookup_nul_iff.mp failed)

theorem write_fault (noNul : ¬ p.hasNul) (failed : s.write p content = .error fault) :
    fault ≠ .nul := by
  unfold write at failed
  cases looked : s.lookup .create p with
  | error other =>
    rw [looked] at failed
    cases failed
    exact lookup_fault noNul looked
  | ok target =>
    rw [looked] at failed
    cases target with
    | vacant parent name => cases failed
    | found place node => cases node <;> cases failed <;> exact PathFault.noConfusion

theorem makeDir_fault (noNul : ¬ p.hasNul) (failed : s.makeDir p = .error fault) :
    fault ≠ .nul := by
  unfold makeDir at failed
  cases looked : s.lookup .keepLink p with
  | error other =>
    rw [looked] at failed
    cases failed
    exact lookup_fault noNul looked
  | ok target =>
    rw [looked] at failed
    cases target with
    | vacant parent name => cases failed
    | found place node =>
      cases failed
      exact PathFault.noConfusion

theorem accept_fault {r : Refusal} (failed : s.accept p r = .error fault) : fault ≠ .nul := by
  unfold accept at failed
  split at failed <;> cases failed <;> exact PathFault.noConfusion

theorem makeLast_fault (noNul : ¬ p.hasNul) (failed : s.makeLast p = .error fault) :
    fault ≠ .nul := by
  unfold makeLast at failed
  split at failed
  · split at failed
    · cases failed
      exact PathFault.noConfusion
    · exact accept_fault failed
  · exact makeDir_fault noNul failed

theorem makeDirs_fault (noNul : ¬ p.hasNul) (failed : (s.makeDirs p).2 = some fault) :
    fault ≠ .nul := by
  fun_induction makeDirs s p with
  | case1 | case5 | case7 => cases failed
  | case2 p made => exact absurd rfl (makeDir_fault noNul made)
  | case3 =>
    cases failed
    exact PathFault.noConfusion
  | case4 p r refused missing nonempty s' other above ih =>
    rw [above] at ih
    exact ih (Path.noNul_parent noNul) failed
  | case6 p r refused missing nonempty s' above other made =>
    cases failed
    exact makeLast_fault noNul made
  | case8 p r refused missing other accepted =>
    cases failed
    exact accept_fault accepted

end Faults

/-- How the writing of a single file can end: nothing has changed, or the file that the path leads
    to holds the text and nothing else has changed. What a device is given, it does not keep. -/
inductive WriteEnds (s : Store) (target : Path) (t : Text) : Except Failure Unit → Store → Prop
  | refused {f : Failure} (error : f.IsWriteError target) : WriteEnds s target t (.error f) s
  | held {place : Place} {s' : Store}
      (before : s.node? place = none ∨ ∃ old time, s.entry target = .ok (place, .file old time))
      (after : s'.entry target = .ok (place, .file (.bytes (Utf8.encode t)) none))
      (others : ∀ other, other ≠ place → s'.node? other = s.node? other) :
      WriteEnds s target t (.ok ()) s'
  | swallowed {place : Place} (device : s.entry target = .ok (place, .device)) :
      WriteEnds s target t (.ok ()) s

theorem writeText_writeEnds (noNul : ¬ p.hasNul) (s : Store) (t : Text) :
    ∃ answer s', Task.Ends (writeText p t) s answer s' ∧ s.WriteEnds p t answer s' := by
  cases wrote : s.write p (.bytes (Utf8.encode t)) with
  | error fault =>
    exact ⟨_, s, writeText_halts wrote,
      .refused (failureAt_isWriteError (write_fault noNul wrote) p)⟩
  | ok s' =>
    refine ⟨_, s', writeText_ends wrote, ?_⟩
    obtain ⟨target, looked, ⟨rfl, becomes⟩ | ⟨rfl, device⟩⟩ := write_cases wrote
    · have below := Target.below becomes Node.noConfusion
      refine .held ?_ (entry_put looked below becomes (Node.file_solid _ _)) fun other apart => ?_
      · rcases becomes.file with vacant | ⟨old, time, stands⟩
        · exact .inl vacant
        · exact .inr ⟨old, time, (Grows.refl s).lookup looked stands (Node.file_solid _ _)⟩
      · rw [node?_put _ _ _ _ below, if_neg apart]
    · exact .swallowed ((Grows.refl s').lookup looked device Node.device_solid)

/-- How the writing of an application can end: the directory cannot be made, and no file has
    changed; or the files before the first that cannot be written are written; or all are. -/
inductive Emission (s : Store) (assets : Assets) (dir : Path) (files : List (Path × Text)) :
    Except Failure Manifest → Store → Prop
  | unmade {f : Failure} {s' : Store} (failed : Task.Ends (ensureDir dir) s (.error f) s')
      (error : f.IsWriteError dir)
      (kept : ∀ place, s'.node? place = s.node? place ∨
        s.node? place = none ∧ s'.node? place = some .dir) :
      Emission s assets dir files (.error f) s'
  | stopped {done rest : List (Path × Text)} {target : Path} {t : Text} {f : Failure}
      {s₁ s' : Store} (made : Task.Ends (ensureDir dir) s (.ok ()) s₁)
      (planned : files = done ++ (target, t) :: rest)
      (wrote : Task.Ends (done.forM fun (target, t) => writeText target t) s₁ (.ok ()) s')
      (failed : Task.Ends (writeText target t) s' (.error f) s') (error : f.IsWriteError target) :
      Emission s assets dir files (.error f) s'
  | written {s₁ s' : Store} (made : Task.Ends (ensureDir dir) s (.ok ()) s₁)
      (wrote : Task.Ends (files.forM fun (target, t) => writeText target t) s₁ (.ok ()) s') :
      Emission s assets dir files (.ok (.planned assets dir)) s'

theorem Writes.ends {files : List (Path × Text)} (writes : Writes s (files.map encoded) s') :
    Task.Ends (files.forM fun (target, t) => writeText target t) s (.ok ()) s' := by
  induction files generalizing s with
  | nil =>
    cases writes
    exact Task.ends_pure () s'
  | cons file files ih =>
    obtain ⟨target, t⟩ := file
    cases writes with
    | cons wrote later => exact (writeText_ends wrote).bind (ih later)

variable {dir : Path}

theorem noNul_files {assets : Assets} {appName appVersion : Text} (noNul : ¬ dir.hasNul)
    (member : p ∈ (Manifest.files assets dir appName appVersion).map Prod.fst) : ¬ p.hasNul := by
  have plain : ∀ name ∈ Manifest.names, .scalar '\x00' ∉ name := by decide
  let config : Config := ⟨dir, dir, false, some appName, appVersion, false⟩
  have member : p ∈ (config.plan assets).map Prod.fst := member
  obtain ⟨name, listed, rfl⟩ := name_of_mem member
  exact Path.noNul_child noNul (plain name listed)

theorem makeDirs_kept (s : Store) (dir : Path) (place : Place) :
    (s.makeDirs dir).1.node? place = s.node? place ∨
      s.node? place = none ∧ (s.makeDirs dir).1.node? place = some .dir := by
  rcases (s.makeDirs_touches dir).changed place with same | ⟨vacant, q, -, leads⟩ | ⟨q, -, none, -⟩
  · exact .inl same
  · exact .inr ⟨vacant, entry_node leads⟩
  · exact none.elim

theorem emit_emission (noNul : ¬ dir.hasNul) (s : Store) (assets : Assets)
    (appName appVersion : Text) :
    ∃ answer s', Task.Ends (emit assets dir appName appVersion) s answer s' ∧
      s.Emission assets dir (Manifest.files assets dir appName appVersion) answer s' := by
  let config : Config := ⟨dir, dir, false, some appName, appVersion, false⟩
  obtain ⟨answer, s', ends, emits⟩ := s.emit_ends config assets
  refine ⟨answer, s', ends, ?_⟩
  have readied := s.ensureDir_ends dir
  cases emits with
  | unmade refused =>
    rw [refused] at readied
    exact .unmade readied (failureAt_isWriteError (makeDirs_fault noNul refused) dir)
      (s.makeDirs_kept dir)
  | stopped made planned writes refused =>
    rw [made] at readied
    have noNul' := noNul_files noNul (planned ▸ List.mem_map_of_mem List.mem_append_cons_self)
    exact .stopped readied planned writes.ends (writeText_halts refused)
      (failureAt_isWriteError (write_fault noNul' refused) _)
  | written made writes =>
    rw [made] at readied
    exact .written readied writes.ends

theorem emit_ok {s₁ : Store} {assets : Assets} {appName appVersion : Text}
    (made : Task.Ends (ensureDir dir) s (.ok ()) s₁)
    (wrote : Task.Ends ((Manifest.files assets dir appName appVersion).forM
      fun (target, t) => writeText target t) s₁ (.ok ()) s') :
    Task.Ends (emit assets dir appName appVersion) s (.ok (.planned assets dir)) s' :=
  made.bind (wrote.bind (Task.ends_pure _ s'))

/-- The files of an application are written in their order, up to the first that cannot be. There is
    an answer other than an error exactly if all are written. -/
theorem emit_in_order (noNul : ¬ dir.hasNul) (s : Store) (assets : Assets)
    (appName appVersion : Text) :
    (∃ answer s', Task.Ends (emit assets dir appName appVersion) s answer s' ∧
      s.Emission assets dir (Manifest.files assets dir appName appVersion) answer s') ∧
    (∀ s', (∃ files, Task.Ends (emit assets dir appName appVersion) s (.ok files) s') ↔
      ∃ s₁, Task.Ends (ensureDir dir) s (.ok ()) s₁ ∧
        Task.Ends ((Manifest.files assets dir appName appVersion).forM
          fun (target, t) => writeText target t) s₁ (.ok ()) s') ∧
    ∀ target ∈ (Manifest.files assets dir appName appVersion).map Prod.fst, ∀ before t,
      ∃ answer after, Task.Ends (writeText target t) before answer after ∧
        before.WriteEnds target t answer after := by
  obtain ⟨answer, left, ends, emission⟩ := emit_emission noNul s assets appName appVersion
  refine ⟨⟨answer, left, ends, emission⟩, fun s' => ⟨?_, ?_⟩, fun target member =>
    writeText_writeEnds (noNul_files noNul member)⟩
  · rintro ⟨files, done⟩
    obtain ⟨rfl, rfl⟩ := ends.unique done
    cases emission with
    | written made wrote => exact ⟨_, made, wrote⟩
  · rintro ⟨s₁, made, wrote⟩
    exact ⟨_, emit_ok made wrote⟩

theorem emit_in_order_of_desk : ¬ desk.output.hasNul ∧
    ∃ s', Task.Ends (emit (.ofText "x" false) desk.output "a" "1") (desk [])
        (.ok (.planned (.ofText "x" false) desk.output)) s' ∧
      (desk []).Emission (.ofText "x" false) desk.output
        (Manifest.files (.ofText "x" false) desk.output "a" "1")
        (.ok (.planned (.ofText "x" false) desk.output)) s' := by
  let config : Config := ⟨desk.page, desk.output, false, some "a", "1", false⟩
  have made := (desk []).ensureDir_ends desk.output
  rw [desk_makeDirs] at made
  obtain ⟨s', writes⟩ := plan_writes config (desk_ready []) (desk_open []) (.ofText "x" false)
  have ends : Task.Ends (emit (.ofText "x" false) desk.output "a" "1") (desk [])
      (.ok (.planned (.ofText "x" false) desk.output)) s' := emit_ok made writes.ends
  obtain ⟨⟨answer, left, ends', emission⟩, -⟩ :=
    emit_in_order (by decide : ¬ desk.output.hasNul) (desk []) (.ofText "x" false) "a" "1"
  obtain ⟨rfl, rfl⟩ := ends'.unique ends
  exact ⟨by decide, left, ends, emission⟩

def drain : Store :=
  ⟨[(["dev"], .dir), (["dev", "null"], .device), (["o"], .dir),
    (["o", "index.html"], .link "/dev/null")], []⟩

def drain.page : Path := ⟨.relative, ["o", "index.html"]⟩

theorem drain_lookup (ending : Ending) (followed : ending ≠ .keepLink) :
    drain.lookup ending drain.page = .ok (.found ["dev", "null"] .device) := by
  refine lookup_eq_ok_iff.mpr ⟨⟨by decide, by decide⟩, ?_⟩
  refine .down rfl ⟨by decide, by decide, fun bare => absurd bare.2 (by decide), by decide⟩ rfl
    Node.dir_solid ?_
  refine .follow rfl
    ⟨by decide, by decide, fun bare => absurd bare.2 (by decide), by decide⟩ rfl
    (fun last => followed last.2) ?_
  refine .down rfl ⟨by decide, by decide, fun bare => absurd bare.2 (by decide), by decide⟩ rfl
    Node.dir_solid ?_
  exact .down rfl ⟨by decide, by decide, fun bare => absurd bare.2 (by decide), by decide⟩ rfl
    Node.device_solid (.here rfl)

/-- The page is written without an error, and afterwards no file is there that holds it. -/
theorem drain_swallows : Task.Ends (writeText drain.page "x") drain (.ok ()) drain ∧
    ∀ place content time, drain.entry drain.page ≠ .ok (place, .file content time) := by
  have wrote : drain.write drain.page (.bytes (Utf8.encode "x")) = .ok drain := by
    rw [write, drain_lookup .create (by decide)]
    rfl
  refine ⟨writeText_ends wrote, fun place content time leads => ?_⟩
  rw [entry_eq_ok_iff, drain_lookup .followLink (by decide)] at leads
  cases leads

end Store

end Unbundle
