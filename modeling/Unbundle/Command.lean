import Unbundle.Command.Arguments
import Unbundle.Store.Stages

namespace Unbundle

inductive Stream
  | out
  | err
deriving DecidableEq

/-- How messages are shown. A stream may refuse one that it cannot write. -/
structure Console where
  echo : Stream → Text → Option Text

def Console.plain : Console := ⟨fun _ message => some (message ++ "\n")⟩

structure Report where
  exitCode : Nat
  log : Text
  messages : List (Stream × Text)

structure Screen where
  exitCode : Nat
  stdout : Text
  stderr : Text

namespace Screen

def add (s : Screen) : Stream → Text → Screen
  | .out, t => { s with stdout := s.stdout ++ t }
  | .err, t => { s with stderr := s.stderr ++ t }

/-- Shows messages up to the first that is refused, which ends the command. -/
def say (console : Console) (s : Screen) : List (Stream × Text) → Screen
  | [] => s
  | (stream, message) :: rest =>
    match console.echo stream message with
    | some shown => (s.add stream shown).say console rest
    | none => { s with exitCode := 1, stderr := s.stderr ++ "<traceback>\n" }

end Screen

namespace Report

def shown (console : Console) (r : Report) : Screen :=
  Screen.say console ⟨r.exitCode, [], r.log⟩ r.messages

def stdout (r : Report) : Text := (r.shown .plain).stdout

def ofLog (debug : Bool) (log : Log) : Text :=
  (log.filter fun e => debug || e.level = .warning || e.level = .error).flatMap LogEntry.line

def ofFailure (debug : Bool) (f : Failure) : List (Stream × Text) :=
  (.err, "✗ " ++ f.describe) ::
    if debug then [(.err, "\nTraceback:"), (.err, "<traceback>\n")] else []

/-- A failure may bring an exit code of its own, which counts if it is a positive number. -/
def exitValue (f : Failure) : Option Value → Value
  | none => .int f.exitCode
  | some (.int n) => if 0 < n then .int n else .int 1
  | some (.bool true) => .bool true
  | some _ => .int 1

def ofFiles (m : Manifest) : List (Stream × Text) :=
  (.out, "✓ Split into " ++ m.outputDir.toText) :: m.paths.map fun p => (.out, "  " ++ p.toText)

def ofCounts (kind : Kind) (found moved : Nat) : Text :=
  kind.name ++ ": " ++ Text.ofNat found ++ " inline block(s), " ++ Text.ofNat moved ++
    " to extract"

def movedCount (all : Bool) (found : Nat) : Option Text → Nat
  | none => 0
  | some _ => if all then found else 1

def ofAssets (all : Bool) (a : Assets) : List (Stream × Text) :=
  [(.out, ofCounts .style a.styleBlocks (movedCount all a.styleBlocks a.styleText)),
    (.out, ofCounts .script a.scriptBlocks (movedCount all a.scriptBlocks a.scriptText))]

def ofOutcome (debug : Bool) (log : Log) : Outcome → Report
  | .done files =>
    ⟨0, ofLog debug log, if debug then (.out, "stage: done") :: ofFiles files else ofFiles files⟩
  | .failed _ f => ⟨1, ofLog debug log, [(.err, "✗ " ++ f.describe)]⟩

def ofInspection (debug all : Bool) (log : Log) : Except Failure Assets → Report
  | .ok assets => ⟨0, ofLog debug log, ofAssets all assets⟩
  | .error f => ⟨f.exitCode, ofLog debug log, ofFailure debug f⟩

end Report

namespace Store

def settled : Except Empty Outcome → Outcome
  | .ok outcome => outcome

def splitFile [Schema] (s : Store) (input : Path) (options : Options) : Outcome × Trace Store :=
  ((split stages s.locate input options).run ⟨s, []⟩).map settled id

def inspectFile (s : Store) (input : Path) (all : Bool) : Except Failure Assets × Trace Store :=
  (inspect stages input all).run.run ⟨s, []⟩

end Store

namespace Command

def usage : List Text :=
  ["Usage: html-splitter [--debug] split INPUT [--output-dir DIR] [--zip] [--app-name NAME]",
    "                     [--app-version VERSION] [--all-blocks]",
    "       html-splitter [--debug] inspect INPUT [--all-blocks]"]

variable [Schema]

def run (s : Store) : Command → Report × Store
  | .help => (⟨0, [], usage.map fun line => (.out, line)⟩, s)
  | .split debug asked =>
    let (outcome, trace) := s.splitFile asked.input asked.options
    (.ofOutcome debug trace.log outcome, trace.world)
  | .inspect debug input all =>
    let (answer, trace) := s.inspectFile input all
    (.ofInspection debug all trace.log answer, trace.world)

def main (parse : List Text → Except UsageError Command) (console : Console) (s : Store)
    (words : List Text) : Except UsageError (Screen × Store) := do
  let (report, s') := run s (← parse words)
  return (report.shown console, s')

end Command

end Unbundle
