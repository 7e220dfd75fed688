import Unbundle.Assets
import Unbundle.Path
import Unbundle.Skeleton
import Unbundle.Options.Config
import Unbundle.Task

namespace Unbundle

structure Manifest where
  outputDir : Path
  htmlPath : Path
  entryScriptPath : Path
  manifestPath : Path
  stylesheetPath : Option Path := none
  scriptPath : Option Path := none
  archivePath : Option Path := none

namespace Manifest

def paths (m : Manifest) : List Path :=
  m.stylesheetPath.toList ++ m.scriptPath.toList ++
    [m.htmlPath, m.entryScriptPath, m.manifestPath] ++ m.archivePath.toList

def planned (assets : Assets) (dir : Path) : Manifest where
  outputDir := dir
  htmlPath := dir.child Skeleton.pageFile
  entryScriptPath := dir.child Skeleton.entryFile
  manifestPath := dir.child Skeleton.manifestFile
  stylesheetPath := assets.styleText.map fun _ => dir.child Kind.style.file
  scriptPath := assets.scriptText.map fun _ => dir.child Kind.script.file

def files (assets : Assets) (dir : Path) (appName appVersion : Text) : List (Path × Text) :=
  (assets.styleText.toList.map fun t => (dir.child Kind.style.file, t)) ++
    (assets.scriptText.toList.map fun t => (dir.child Kind.script.file, t)) ++
    [(dir.child Skeleton.pageFile, assets.markup),
      (dir.child Skeleton.entryFile, Skeleton.entryScript appName),
      (dir.child Skeleton.manifestFile, Skeleton.manifest appName appVersion)]

end Manifest

structure Document where
  path : Path
  text : Text

inductive Stage
  | validating
  | extracting
  | emitting
  | packaging
deriving DecidableEq

def Stage.name : Stage → Text
  | .validating => "validating"
  | .extracting => "extracting"
  | .emitting => "emitting"
  | .packaging => "packaging"

/-- What carries out the stages on a world, and may raise `ε`. -/
structure Stages (ε σ : Type) where
  validate : Path → Work ε σ Unit
  read : Path → Work ε σ Document
  extract : Text → Bool → Work ε σ Assets
  emit : Assets → Path → Text → Text → Work ε σ Manifest
  package : Path → Work ε σ Path

inductive Way
  | thread
  | call
  | coroutine
deriving DecidableEq

/-- What becomes of an exception on its way from a stage into the answer. It can get lost on the
    way, or when its text is asked for; then the split ends in `κ`. -/
inductive Fate (κ : Type)
  | told (f : Failure)
  | untold (f : Failure) (ends : κ)
  | lost (ends : κ)

/-- Exceptions of stages. Those who wait for a thread may take one for the answer of its stage: a
    document, or something that fails where a document is needed. -/
class Raises (ε : Type) (κ : outParam Type) where
  fate : Way → ε → Fate κ
  answer? : ε → Option (Except Failure Document)

/-- The failures of this library get through, whatever the way. -/
instance : Raises Failure Empty where
  fate _ f := .told f
  answer? _ := none

inductive Outcome
  | done (files : Manifest)
  | failed (stage : Stage) (failure : Failure)

inductive Verdict
  | done
  | failed
deriving DecidableEq

def Verdict.name : Verdict → Text
  | .done => "done"
  | .failed => "failed"

structure Answer where
  success : Bool
  verdict : Verdict
  files : Option Manifest := none
  error : Option Text := none
  errorTitle : Option Text := none
  failedStage : Option Stage := none

def Outcome.answer : Outcome → Answer
  | .done files => { success := true, verdict := .done, files := some files }
  | .failed stage failure => {
      success := false
      verdict := .failed
      error := some failure.describe
      errorTitle := some failure.title
      failedStage := some stage }

namespace Split

variable {ε κ σ α : Type} [Schema] [Raises ε κ]

abbrev Staged (κ σ α : Type) := Work (Stage × Fate κ) σ α

def during (stage : Stage) (way : Way) (work : Work ε σ α) : Staged κ σ α :=
  work.adapt fun e => (stage, Raises.fate way e)

def received (take : Except Failure Document → Except (Stage × Fate κ) α) :
    Except ε α → Except (Stage × Fate κ) α
  | .ok a => .ok a
  | .error e =>
    match Raises.answer? e with
    | some answer => take answer
    | none => .error (.validating, Raises.fate .thread e)

def waiting (work : Work ε σ α) (take : Except Failure Document → Except (Stage × Fate κ) α) :
    Staged κ σ α :=
  ExceptT.mk (received take <$> work.run)

def validating (stages : Stages ε σ) (input : Path) : Staged κ σ Unit :=
  waiting (stages.validate input) fun _ => .ok ()

def reading (stages : Stages ε σ) (input : Path) : Staged κ σ Document :=
  waiting (stages.read input) fun answer => answer.mapError fun f => (.extracting, .told f)

def entering (stage : Stage) (detail : Text) : Staged κ σ Unit :=
  Task.say .debug .splitting ("stage=" ++ stage.name ++ detail)

def resolving (locate : Locate) (input : Path) (options : Options) : Staged κ σ Config :=
  Task.ofExcept ((options.resolve locate input).mapError fun f => (.validating, .told f))

def pack (stages : Stages ε σ) (config : Config) (files : Manifest) : Staged κ σ Manifest :=
  if config.createZip then do
    entering .packaging []
    let archive ← during .packaging .coroutine (stages.package config.outputDir)
    return { files with archivePath := some archive }
  else return files

def run (stages : Stages ε σ) (locate : Locate) (input : Path) (options : Options) :
    Staged κ σ (Document × Manifest) := do
  entering .validating (" input=" ++ input.toText)
  let config ← resolving locate input options
  validating stages config.inputPath
  let document ← reading stages config.inputPath
  entering .extracting (" chars=" ++ Text.ofNat document.text.length)
  let assets ← during .extracting .call (stages.extract document.text config.extractAll)
  entering .emitting (" output_dir=" ++ config.outputDir.toText)
  let files ← during .emitting .coroutine
    (stages.emit assets config.outputDir (config.appName.getD Path.defaultAppName)
      config.appVersion)
  return (document, ← pack stages config files)

def conclude (input : Path) :
    Except (Stage × Fate κ) (Document × Manifest) → Steady σ (Except κ Outcome)
  | .ok (document, files) => do
    Task.tell .info .splitting ("split " ++ document.path.toText ++ " into " ++
      files.outputDir.toText ++ " (" ++ Text.ofNat files.paths.length ++ " files)")
    return .ok (.done files)
  | .error (stage, .told failure) => do
    if failure.isExpected then
      Task.tell .debug .splitting
        ("split failed during " ++ stage.name ++ ": " ++ failure.message)
    else
      Task.tell .error .splitting ("unexpected error while splitting " ++ input.toText)
    return .ok (.failed stage failure)
  | .error (_, .untold failure ends) => do
    -- The note on an expected failure holds its text, so none can be made.
    unless failure.isExpected do
      Task.tell .error .splitting ("unexpected error while splitting " ++ input.toText)
    return .error ends
  | .error (_, .lost ends) => return .error ends

end Split

/-- Runs the stages up to the first exception. Exceptions that can be told are answers here. -/
def split {ε κ σ : Type} [Schema] [Raises ε κ] (stages : Stages ε σ) (locate : Locate)
    (input : Path) (options : Options) : Steady σ (Except κ Outcome) := do
  Split.conclude input (← (Split.run stages locate input options).run)

def inspect {σ : Type} (stages : Stages Failure σ) (input : Path) (all : Bool) : Task σ Assets := do
  stages.validate input
  let document ← stages.read input
  stages.extract document.text all

def extraction {σ : Type} (page : Text) (all : Bool) : Task σ Assets := do
  let plan := Plan.make page all
  plan.notices.forM fun notice => Task.say .warning .extraction notice.message
  return plan.assets

end Unbundle
