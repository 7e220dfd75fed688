import Unbundle.Proofs.Command.Counts
import Unbundle.Proofs.Command.Lines

namespace Unbundle

theorem Store.Course.outputDir [Schema] {s s' : Store} {input : Path} {options : Options}
    {config : Config} {files : Manifest} (course : s.Course input options (.done files) s')
    (resolved : options.resolve s.locate input = .ok config) :
    files.outputDir = config.outputDir := by
  cases course with
  | written resolved' _ emits | packed resolved' _ emits =>
    cases resolved.symm.trans resolved'
    cases emits
    rfl

namespace Console

/-- What is relied upon in a console: it prints every message that it is given. -/
def Prints (console : Console) : Prop :=
  ∀ stream message, console.echo stream message = some (message ++ "\n")

theorem plain_prints : plain.Prints := fun _ _ => rfl

def Takes (console : Console) (messages : List (Stream × Text)) : Prop :=
  ∀ m ∈ messages, console.echo m.1 m.2 ≠ none

theorem Prints.takes {console : Console} (prints : console.Prints)
    (messages : List (Stream × Text)) : console.Takes messages := by
  intro m _ refused
  rw [prints] at refused
  cases refused

end Console

namespace Screen

variable {console : Console} {messages : List (Stream × Text)}

@[simp]
theorem add_exitCode (s : Screen) (stream : Stream) (t : Text) :
    (s.add stream t).exitCode = s.exitCode := by
  cases stream <;> rfl

theorem say_of_takes (takes : console.Takes messages) (s : Screen) :
    (s.say console messages).exitCode = s.exitCode := by
  induction messages generalizing s with
  | nil => rfl
  | cons message rest ih =>
    obtain ⟨taken, takes⟩ := List.forall_mem_cons.mp takes
    obtain ⟨shown, taken⟩ := Option.ne_none_iff_exists'.mp taken
    rw [say, taken, ih takes, add_exitCode]

theorem say_of_not_takes (refuses : ¬ console.Takes messages) (s : Screen) :
    (s.say console messages).exitCode = 1 := by
  induction messages generalizing s with
  | nil => exact absurd (List.forall_mem_nil _) refuses
  | cons message rest ih =>
    rw [say]
    cases taken : console.echo message.1 message.2 with
    | none => rfl
    | some shown =>
      refine ih (fun takes => refuses (List.forall_mem_cons.mpr ⟨?_, takes⟩)) _
      rw [taken]
      exact Option.some_ne_none shown

theorem say_err_stdout (quiet : ∀ m ∈ messages, m.1 = .err) (s : Screen) :
    (s.say console messages).stdout = s.stdout := by
  induction messages generalizing s with
  | nil => rfl
  | cons message rest ih =>
    obtain ⟨first, others⟩ := List.forall_mem_cons.mp quiet
    obtain ⟨stream, t⟩ := message
    obtain rfl : stream = .err := first
    rw [say]
    cases console.echo .err t with
    | none => rfl
    | some shown => exact ih others (s.add .err shown)

def lines (stream : Stream) (messages : List (Stream × Text)) : Text :=
  (messages.filter (·.1 = stream)).flatMap (·.2 ++ "\n")

theorem lines_map {α : Type} (stream : Stream) (f : α → Text) (as : List α) :
    lines stream (as.map fun a => (stream, f a)) = as.flatMap fun a => (f a ++ "\n" : Text) := by
  rw [lines, List.filter_eq_self.mpr (by simp), List.flatMap_map]

theorem say_of_prints (prints : console.Prints) (s : Screen) (messages : List (Stream × Text)) :
    s.say console messages =
      ⟨s.exitCode, s.stdout ++ lines .out messages, s.stderr ++ lines .err messages⟩ := by
  induction messages generalizing s with
  | nil => simp [say, lines]
  | cons message rest ih =>
    obtain ⟨stream, t⟩ := message
    rw [say, prints stream t]
    cases stream <;> simp [ih, add, lines]

end Screen

namespace Report

variable {console : Console} {report : Report}

theorem shown_eq_zero_iff :
    (report.shown console).exitCode = 0 ↔
      report.exitCode = 0 ∧ console.Takes report.messages := by
  by_cases takes : console.Takes report.messages
  · rw [shown, Screen.say_of_takes takes]
    simp [takes]
  · rw [shown, Screen.say_of_not_takes takes]
    simp [takes]

theorem shown_eq_one (fails : report.exitCode = 1) : (report.shown console).exitCode = 1 := by
  by_cases takes : console.Takes report.messages
  · rw [shown, Screen.say_of_takes takes, fails]
  · rw [shown, Screen.say_of_not_takes takes]

theorem shown_of_prints (prints : console.Prints) : report.shown console =
    ⟨report.exitCode, Screen.lines .out report.messages,
      report.log ++ Screen.lines .err report.messages⟩ :=
  Screen.say_of_prints prints _ _

end Report

namespace Command

open Store

variable {debug all : Bool} {p : Path} {asked : Asked} {console : Console} {words : List Text}
  {parse : List Text → Except UsageError Command} {command : Command}

section Runs

def FaultsInput (f : Failure) : Prop :=
  f.title = ("NotFoundError" : Text) ∨ f.title = ("InvalidInputError" : Text)

/-- A positive number, or the truth value that counts as one. -/
def IsExitCode : Value → Prop
  | .int n => 0 < n
  | .bool b => b
  | _ => False

theorem exitCode_of_fault {f : Failure} (faults : FaultsInput f) : f.exitCode = 2 := if_pos faults

theorem exitCode_of_other {f : Failure} (other : ¬ FaultsInput f) : f.exitCode = 1 := if_neg other

theorem exitCode_ne_zero (f : Failure) : f.exitCode ≠ 0 := by
  rw [Failure.exitCode]
  split <;> decide

theorem exitValue_of_no_code {f : Failure} {own : Option Value} (other : ¬ FaultsInput f)
    (none : ∀ v, own = some v → ¬ IsExitCode v) : Report.exitValue f own = .int 1 := by
  match own with
  | .none => exact congrArg (fun n : Nat => Value.int n) (exitCode_of_other other)
  | some v =>
    have no := none v rfl
    cases v with
    | int n => exact if_neg no
    | bool b =>
      cases b with
      | true => exact absurd rfl no
      | false => rfl
    | _ => rfl

/-- What is printed lists the files that splitting wrote, in the order of writing. -/
structure Lists [Schema] (s : Store) (asked : Asked) (files : Manifest) (printed : Text)
    (s' : Store) : Prop where
  delivered : ∃ config document packings,
    asked.options.resolve s.locate asked.input = .ok config ∧
    s.load asked.input = .ok document ∧
    s.Delivery config (.ofText document.text config.extractAll) files packings s' ∧
    files.outputDir = config.outputDir
  printed : printed = "✓ Split into " ++ files.outputDir.toText ++ "\n" ++
    files.paths.flatMap fun q => ("  " ++ q.toText ++ "\n" : Text)

/-- The files that splitting makes are left whatever becomes of the messages, and the exit code is 0
    if it succeeded and every message was shown. On a console that prints whatever it is given,
    exit code and messages tell of the result. -/
structure FrontsSplit [Schema] (console : Console) (s : Store) (debug : Bool) (asked : Asked)
    (screen : Screen) (s' : Store) : Prop where
  left : s' = (s.splitFile asked.input asked.options).2.world
  exit : screen.exitCode = 0 ↔ (s.splitFile asked.input asked.options).1.answer.success ∧
    console.Takes (run s (.split debug asked)).1.messages
  exit_iff : console.Prints →
    (screen.exitCode = 0 ↔ (s.splitFile asked.input asked.options).1.answer.success)
  done : (s.splitFile asked.input asked.options).1.answer.success →
    ∃ files, (s.splitFile asked.input asked.options).1.answer.files = some files ∧
      (console.Prints → debug = false → Lists s asked files screen.stdout s')
  failed : (s.splitFile asked.input asked.options).1.answer.success = false →
    screen.exitCode = 1 ∧ screen.stdout = [] ∧
      ∃ error, (s.splitFile asked.input asked.options).1.answer.error = some error ∧
        (console.Prints → ("✗ " ++ error ++ "\n" : Text) <:+ screen.stderr)

/-- No file is touched. On a console that prints whatever it is given, the exit code tells how
    inspecting ended; a failure that brings no exit code of its own has 2 if it is one of the input,
    and else 1. -/
structure FrontsInspect [Schema] (console : Console) (s : Store) (debug : Bool) (p : Path)
    (all : Bool) (screen : Screen) (s' : Store) : Prop where
  left : s' = s
  exit : screen.exitCode = 0 ↔ (∃ assets, (s.inspectFile p all).1 = .ok assets) ∧
    console.Takes (run s (.inspect debug p all)).1.messages
  exit_iff : console.Prints →
    (screen.exitCode = 0 ↔ ∃ assets, (s.inspectFile p all).1 = .ok assets)
  fault : console.Prints → ∀ f, (s.inspectFile p all).1 = .error f → FaultsInput f →
    screen.exitCode = 2
  other : ∀ f, (s.inspectFile p all).1 = .error f → ¬ FaultsInput f → screen.exitCode = 1
  told : console.Prints → ∀ f, (s.inspectFile p all).1 = .error f →
    .int screen.exitCode = Report.exitValue f none
  codeless : ∀ f own, ¬ FaultsInput f → (∀ v, own = some v → ¬ IsExitCode v) →
    Report.exitValue f own = .int 1

theorem stdout_of_done {log : Log} {files : Manifest} (prints : console.Prints) :
    ((Report.ofOutcome false log (.done files)).shown console).stdout =
      "✓ Split into " ++ files.outputDir.toText ++ "\n" ++
        files.paths.flatMap fun q => ("  " ++ q.toText ++ "\n" : Text) := by
  rw [Report.shown_of_prints prints, ← Screen.lines_map .out fun q : Path => "  " ++ q.toText]
  rfl

theorem stderr_of_failed (prints : console.Prints) (log : Log) (stage : Stage) (f : Failure) :
    ("✗ " ++ f.describe ++ "\n" : Text) <:+
      ((Report.ofOutcome debug log (.failed stage f)).shown console).stderr := by
  rw [Report.shown_of_prints prints]
  exact ⟨Report.ofLog debug log, by simp [Report.ofOutcome, Screen.lines]⟩

theorem split_fronts [Schema] (console : Console) (s : Store) (debug : Bool) (asked : Asked) :
    FrontsSplit console s debug asked ((run s (.split debug asked)).1.shown console)
      (run s (.split debug asked)).2 := by
  have course := s.splitFile_course asked.input asked.options
  have ran : run s (.split debug asked) =
      (.ofOutcome debug (s.splitFile asked.input asked.options).2.log
          (s.splitFile asked.input asked.options).1,
        (s.splitFile asked.input asked.options).2.world) := rfl
  have exit : ((run s (.split debug asked)).1.shown console).exitCode = 0 ↔
      (s.splitFile asked.input asked.options).1.answer.success ∧
        console.Takes (run s (.split debug asked)).1.messages := by
    rw [Report.shown_eq_zero_iff, ran]
    refine and_congr_left fun _ => ?_
    cases (s.splitFile asked.input asked.options).1 with
    | done files => exact iff_of_true rfl rfl
    | failed stage f => exact iff_of_false (by nofun) (by nofun)
  refine { left := rfl, exit, exit_iff := fun prints => ?_, done := ?_, failed := ?_ }
  · rw [exit, and_iff_left (prints.takes _)]
  · intro success
    cases outcome : (s.splitFile asked.input asked.options).1 with
    | done files =>
      rw [outcome] at course
      obtain ⟨config, document, packings, resolved, loaded, delivery⟩ := course.delivery
      refine ⟨files, rfl, fun prints quiet => ?_⟩
      subst quiet
      exact {
        delivered := ⟨config, document, packings, resolved, loaded, delivery,
          course.outputDir resolved⟩
        printed := by
          rw [ran, outcome]
          exact stdout_of_done prints }
    | failed stage f =>
      rw [outcome] at success
      cases success
  · intro failed
    cases outcome : (s.splitFile asked.input asked.options).1 with
    | done files =>
      rw [outcome] at failed
      cases failed
    | failed stage f =>
      rw [ran, outcome]
      exact ⟨Report.shown_eq_one rfl, Screen.say_err_stdout (by simp [Report.ofOutcome]) _,
        f.describe, rfl, fun prints => stderr_of_failed prints _ stage f⟩

theorem inspect_fronts [Schema] (console : Console) (s : Store) (debug : Bool) (p : Path)
    (all : Bool) :
    FrontsInspect console s debug p all ((run s (.inspect debug p all)).1.shown console)
      (run s (.inspect debug p all)).2 := by
  have failing {f : Failure} (answer : (s.inspectFile p all).1 = .error f) :
      (run s (.inspect debug p all)).1.exitCode = f.exitCode := by
    rw [run_inspect, answer]
    rfl
  have exitCode (prints : console.Prints) {f : Failure}
      (answer : (s.inspectFile p all).1 = .error f) :
      ((run s (.inspect debug p all)).1.shown console).exitCode = f.exitCode := by
    rw [Report.shown_of_prints prints]
    exact failing answer
  have exit : ((run s (.inspect debug p all)).1.shown console).exitCode = 0 ↔
      (∃ assets, (s.inspectFile p all).1 = .ok assets) ∧
        console.Takes (run s (.inspect debug p all)).1.messages := by
    rw [Report.shown_eq_zero_iff]
    refine and_congr_left fun _ => ?_
    cases answer : (s.inspectFile p all).1 with
    | ok assets =>
      rw [run_inspect, answer]
      exact iff_of_true rfl ⟨assets, rfl⟩
    | error f =>
      rw [failing answer]
      exact iff_of_false (exitCode_ne_zero f) (by simp)
  exact {
    left := (s.inspectFile_eq p all).2
    exit
    exit_iff := fun prints => by rw [exit, and_iff_left (prints.takes _)]
    fault := fun prints f answer faults => by rw [exitCode prints answer, exitCode_of_fault faults]
    other := fun f answer other =>
      Report.shown_eq_one ((failing answer).trans (exitCode_of_other other))
    told := fun prints f answer => by
      rw [exitCode prints answer]
      rfl
    codeless := fun _ _ => exitValue_of_no_code }

theorem main_parsed [Schema] (parsed : parse words = .ok command) (console : Console) (s : Store) :
    main parse console s words =
      .ok ((run s command).1.shown console, (run s command).2) := by
  rw [main, parsed]
  rfl

/-- The command line is a front: a line that asks for something, or is taken to ask for it, does and
    tells what was asked for. -/
theorem fronts [Schema] (understands : Understands parse) (console : Console) (s : Store)
    (words : List Text) (debug : Bool) :
    (∀ asked, AsksSplit words debug asked ∨ parse words = .ok (.split debug asked) →
      ∃ screen s', main parse console s words = .ok (screen, s') ∧
        FrontsSplit console s debug asked screen s') ∧
    ∀ p all, AsksInspect words debug p all ∨ parse words = .ok (.inspect debug p all) →
      ∃ screen s', main parse console s words = .ok (screen, s') ∧
        FrontsInspect console s debug p all screen s' := by
  constructor
  · intro asked asks
    have parsed := asks.elim understands.split id
    exact ⟨_, _, main_parsed parsed console s, split_fronts console s debug asked⟩
  · intro p all asks
    have parsed := asks.elim understands.inspect id
    exact ⟨_, _, main_parsed parsed console s, inspect_fronts console s debug p all⟩

def versioned : List Text := ["split", "--app-version=2", "p.html", "--app-version", "1.0.0"]

def deskAsked : Asked := ⟨Store.desk.page, none, false, none, "1.0.0", false⟩

theorem versioned_asks : AsksSplit versioned false deskAsked := by
  have line : versioned = [] ++ ("split" : Text) ::
      ([Switch.appVersion.long ++ "=" ++ ("2" : Text)] ++ ("p.html" : Text) ::
        ([Switch.appVersion.long, ("1.0.0" : Text)] ++ [])) := by decide
  rw [line]
  exact .intro (.halt rfl (by decide)) (by decide) (by decide)
    (.setting (.joined (by decide) rfl) (.word rfl (by decide)
      (.setting (.apart (by decide) rfl) .done)))
    (by decide) rfl (binds_iff.mpr rfl)

open Coercion in
/-- The last version counts, so these are the options that are taken where none are given. -/
theorem fronts_of_desk : Understands read ∧ Console.plain.Prints ∧
    ∃ screen s' files, main read .plain styledDesk versioned = .ok (screen, s') ∧
      screen.exitCode = 0 ∧ Lists styledDesk deskAsked files screen.stdout s' := by
  obtain ⟨split, -⟩ := fronts read_understands .plain styledDesk versioned false
  obtain ⟨screen, s', ran, front⟩ := split deskAsked (.inl versioned_asks)
  have success : (styledDesk.splitFile deskAsked.input deskAsked.options).1.answer.success := by
    have splits : (styledDesk.splitFile deskAsked.input deskAsked.options).1 = _ :=
      desk_splits (Utf8.encode "<style>p</style>")
    rw [splits]
    rfl
  obtain ⟨files, -, lists⟩ := front.done success
  exact ⟨read_understands, Console.plain_prints, screen, s', files, ran,
    (front.exit_iff Console.plain_prints).mpr success, lists Console.plain_prints rfl⟩

end Runs

end Command

end Unbundle
