import Unbundle.Failure

namespace Unbundle

inductive Level
  | debug
  | info
  | warning
  | error
deriving DecidableEq

def Level.name : Level → Text
  | .debug => "DEBUG"
  | .info => "INFO"
  | .warning => "WARNING"
  | .error => "ERROR"

inductive Source
  | extraction
  | writing
  | packing
  | splitting

def Source.name : Source → Text
  | .extraction => "html_splitter.adapters.extractor"
  | .writing => "html_splitter.adapters.emitter"
  | .packing => "html_splitter.adapters.packager"
  | .splitting => "html_splitter.application.use_cases"

structure LogEntry where
  level : Level
  source : Source
  message : Text

abbrev Log := List LogEntry

/-- Only unexpected failures are logged as errors, and those carry a trace of calls. -/
def LogEntry.line (e : LogEntry) : Text :=
  e.level.name ++ " " ++ e.source.name ++ ": " ++ e.message ++ "\n" ++
    (if e.level = .error then "<traceback>\n" else [] : Text)

structure Trace (σ : Type) where
  world : σ
  log : Log

abbrev Steady (σ α : Type) := StateM (Trace σ) α

/-- Work upon a world that logs what it does and may raise `ε`. What was done and logged before
    stays. -/
abbrev Work (ε σ α : Type) := ExceptT ε (StateM (Trace σ)) α

abbrev Task (σ α : Type) := Work Failure σ α

namespace Task

variable {ε σ α : Type}

def tell (level : Level) (source : Source) (message : Text) : Steady σ Unit :=
  modify fun t => { t with log := t.log ++ [⟨level, source, message⟩] }

def say (level : Level) (source : Source) (message : Text) : Work ε σ Unit :=
  ExceptT.lift (tell level source message)

def ofExcept (e : Except ε α) : Work ε σ α := ExceptT.mk (pure e)

def fail (f : Failure) : Task σ α := ofExcept (.error f)

def world : Work ε σ σ := do return (← get).world

def become (w : σ) : Work ε σ Unit := modify fun t => { t with world := w }

end Task

end Unbundle
