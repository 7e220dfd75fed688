import Unbundle.Proofs.Split.Runs
import Unbundle.Split.Recorded

namespace Unbundle

def Task.raised? {ε α : Type} : Except ε α → Option ε
  | .ok _ => none
  | .error e => some e

namespace Thrown

end Thrown

namespace Call

def name : Call → Text
  | .validate _ => "validate"
  | .read _ => "read"
  | .extract _ _ => "extract"
  | .emit _ _ _ _ => "emit"
  | .package _ => "package"

def stage : Call → Stage
  | .validate _ | .read _ => .validating
  | .extract _ _ => .extracting
  | .emit _ _ _ _ => .emitting
  | .package _ => .packaging

def way : Call → Way
  | .validate _ | .read _ => .thread
  | .extract _ _ => .call
  | .emit _ _ _ _ | .package _ => .coroutine

end Call

namespace Script

section Recording

variable {α : Type}

/-- The work asks one stage, whose answer it gives. -/
def Asks (work : Work Thrown (List Call) α) (call : Call) (answer : Except Thrown α) : Prop :=
  ∀ t, ∃ log, work.run.run t = (answer, ⟨t.world ++ [call], log⟩)

end Recording

section Getting

variable {α : Type} {work : Work Thrown (List Call) α} {call : Call} {answer : Except Thrown α}

/-- The split makes one call, of which it gets this. -/
def Gets (work : Split.Staged Escape (List Call) α) (call : Call)
    (got : Except (Stage × Fate Escape) α) : Prop :=
  ∀ t, ∃ log, work.run.run t = (got, ⟨t.world ++ [call], log⟩)

theorem Asks.during (asks : Asks work call answer) (stage : Stage) (way : Way) :
    Gets (Split.during stage way work) call (Split.reached stage way answer) := by
  intro t
  obtain ⟨log, asked⟩ := asks t
  exact ⟨log, Split.during_run asked⟩

theorem Asks.waiting (asks : Asks work call answer)
    (take : Except Failure Document → Except (Stage × Fate Escape) α) :
    Gets (Split.waiting work take) call (Split.received take answer) := by
  intro t
  obtain ⟨log, asked⟩ := asks t
  exact ⟨log, Split.waiting_run asked⟩

end Getting

variable {α β : Type} (s : Script)

def raises? : Call → Option Thrown
  | .validate input => Task.raised? (s.validate input)
  | .read input => Task.raised? (s.read input)
  | .extract page all => Task.raised? (s.extract page all)
  | .emit assets dir appName appVersion => Task.raised? (s.emit assets dir appName appVersion)
  | .package dir => Task.raised? (s.package dir)

/-- What a call fails with, if what its stage raises is not taken for an answer. -/
def fails? (c : Call) : Option (Stage × Fate Escape) :=
  (s.raises? c).bind fun e =>
    match c, e.trait with
    | .validate _, .stopping _ | .read _, .stopping (.ok _) => none
    | .read _, .stopping (.error f) => some (.extracting, .told f)
    | _, _ => some (c.stage, e.fate c.way)

/-- What reading answers, or what is taken for its answer. -/
def Reads (input : Path) (document : Document) : Prop :=
  s.read input = .ok document ∨
    ∃ e, s.read input = .error e ∧ e.trait = .stopping (.ok document)

/-- Each stage is called with what the one before it has answered. -/
inductive Feeds (config : Config) : Call → Prop
  | validate : Feeds config (.validate config.inputPath)
  | read (valid : s.fails? (.validate config.inputPath) = none) :
      Feeds config (.read config.inputPath)
  | extract {document : Document} (before : Feeds config (.read config.inputPath))
      (read : s.Reads config.inputPath document) :
      Feeds config (.extract document.text config.extractAll)
  | emit {page : Text} {assets : Assets} {notices : List Notice}
      (before : Feeds config (.extract page config.extractAll))
      (extracted : s.extract page config.extractAll = .ok (assets, notices)) :
      Feeds config (.emit assets config.outputDir (config.appName.getD Path.defaultAppName)
        config.appVersion)
  | package {assets : Assets} {appName appVersion : Text} {files : Manifest}
      (before : Feeds config (.emit assets config.outputDir appName appVersion))
      (emitted : s.emit assets config.outputDir appName appVersion = .ok files)
      (asked : config.createZip) : Feeds config (.package config.outputDir)

def packing (config : Config) : List Text := if config.createZip then ["package"] else []

/-- Calls in the order of `names`, each fed, up to the first that fails; and a result that tells
    whether one did. -/
structure Orderly (names : List Text) (Fed : Call → Prop) (Ends : α → Prop) (calls : List Call)
    (result : Except (Stage × Fate Escape) α) : Prop where
  ordered : calls.map Call.name <+: names
  fed : ∀ call ∈ calls, Fed call
  halted : calls.Pairwise fun earlier _ => s.fails? earlier = none
  failed : ∀ failed, result = .error failed → ∃ call ∈ calls, s.fails? call = some failed
  sole : ∀ failed, result = .error failed → ∀ call ∈ calls, ∀ other,
    s.fails? call = some other → failed = other
  finished : ∀ a, result = .ok a →
    calls.map Call.name = names ∧ (∀ call ∈ calls, s.fails? call = none) ∧ Ends a

/-- The work leaves the record of calls longer by calls made in order. -/
def Proceeds (names : List Text) (Fed : Call → Prop) (Ends : α → Prop)
    (work : Split.Staged Escape (List Call) α) : Prop :=
  ∀ t, ∃ calls log result, work.run.run t = (result, ⟨t.world ++ calls, log⟩) ∧
    s.Orderly names Fed Ends calls result

variable {s} {names : List Text} {Fed : Call → Prop}

namespace Orderly

variable {Ends : α → Prop} {c : Call}

theorem nil {a : α} (ends : Ends a) : s.Orderly [] Fed Ends [] (.ok a) where
  ordered := List.nil_prefix
  fed := by simp
  halted := .nil
  failed := by simp
  sole := by simp
  finished b same := by
    cases same
    exact ⟨rfl, by simp, ends⟩

theorem last {failed : Stage × Fate Escape} (fails : s.fails? c = some failed) (fed : Fed c) :
    s.Orderly (c.name :: names) Fed Ends [c] (.error failed) where
  ordered := by simp
  fed := by simpa using fed
  halted := List.pairwise_singleton _ _
  failed := by
    rintro _ ⟨⟩
    exact ⟨c, List.mem_singleton_self c, fails⟩
  sole := by
    rintro _ ⟨⟩ call member other fails'
    cases List.mem_singleton.mp member
    exact Option.some.inj (fails.symm.trans fails')
  finished := by simp

theorem cons {calls : List Call} {result : Except (Stage × Fate Escape) α}
    (fails : s.fails? c = none) (fed : Fed c)
    (orderly : s.Orderly names Fed Ends calls result) :
    s.Orderly (c.name :: names) Fed Ends (c :: calls) result where
  ordered := by
    rw [List.map_cons, List.cons_prefix_cons]
    exact ⟨rfl, orderly.ordered⟩
  fed := List.forall_mem_cons.mpr ⟨fed, orderly.fed⟩
  halted := List.pairwise_cons.mpr ⟨fun _ _ => fails, orderly.halted⟩
  failed failed same := by
    obtain ⟨d, member, fails'⟩ := orderly.failed failed same
    exact ⟨d, List.mem_cons_of_mem c member, fails'⟩
  sole failed same := by
    refine List.forall_mem_cons.mpr ⟨?_, orderly.sole failed same⟩
    intro other fails'
    cases fails.symm.trans fails'
  finished b same := by
    obtain ⟨whole, spared, ends⟩ := orderly.finished b same
    refine ⟨?_, List.forall_mem_cons.mpr ⟨fails, spared⟩, ends⟩
    rw [List.map_cons, whole]

end Orderly

namespace Proceeds

theorem pure {Ends : α → Prop} {a : α} (ends : Ends a) : s.Proceeds [] Fed Ends (pure a) :=
  fun t => ⟨[], t.log, .ok a, by rw [List.append_nil]; rfl, .nil ends⟩

theorem entering {Ends : β → Prop} {stage : Stage} {detail : Text}
    {rest : Unit → Split.Staged Escape (List Call) β}
    (proceeds : s.Proceeds names Fed Ends (rest ())) :
    s.Proceeds names Fed Ends (Split.entering stage detail >>= rest) := by
  intro t
  exact proceeds { t with log := t.log ++ [⟨.debug, .splitting, "stage=" ++ stage.name ++ detail⟩] }

theorem resolved [Schema] {Ends : β → Prop} {locate : Locate} {input : Path} {options : Options}
    {config : Config} {rest : Config → Split.Staged Escape (List Call) β}
    (resolved : options.resolve locate input = .ok config)
    (proceeds : s.Proceeds names Fed Ends (rest config)) :
    s.Proceeds names Fed Ends (Split.resolving locate input options >>= rest) := by
  unfold Split.resolving
  rw [resolved]
  exact proceeds

theorem call {Ends : β → Prop} {work : Split.Staged Escape (List Call) α}
    {rest : α → Split.Staged Escape (List Call) β} {c : Call}
    {got : Except (Stage × Fate Escape) α} (gets : Gets work c got)
    (fails : s.fails? c = Task.raised? got) (fed : Fed c)
    (proceeds : ∀ a, got = .ok a → s.Proceeds names Fed Ends (rest a)) :
    s.Proceeds (c.name :: names) Fed Ends (work >>= rest) := by
  intro t
  obtain ⟨log, ran⟩ := gets t
  cases got with
  | error failed => exact ⟨[c], log, .error failed, Task.bind_error ran, .last fails fed⟩
  | ok a =>
    obtain ⟨calls, log', result, rested, orderly⟩ := proceeds a rfl ⟨t.world ++ [c], log⟩
    refine ⟨c :: calls, log', result, ?_, .cons fails fed orderly⟩
    rw [Task.bind_ok ran, rested, List.append_assoc]
    rfl

end Proceeds

section Failing

variable (s)

theorem validate_fails (input : Path) : s.fails? (.validate input) =
    Task.raised? (Split.received (fun _ => .ok ()) (s.validate input)) := by
  rw [fails?, raises?]
  cases s.validate input with
  | ok _ => rfl
  | error e =>
    obtain ⟨failure, trait, hasText⟩ := e
    cases trait <;> rfl

variable {s}

end Failing

theorem Feeds.asked {config : Config} {call : Call} {dir : Path} (fed : s.Feeds config call)
    (packs : call = .package dir) : config.createZip := by
  cases fed <;> cases packs
  assumption

section Schema

variable [Schema]

end Schema

end Script

end Unbundle
