import Unbundle.Split

namespace Unbundle

inductive Call
  | validate (input : Path)
  | read (input : Path)
  | extract (page : Text) (all : Bool)
  | emit (assets : Assets) (dir : Path) (appName appVersion : Text)
  | package (dir : Path)

/-- What those who run a stage take an exception for. One that ends an iteration cannot leave a
    coroutine. A thread keeps it for ever, but one of a variety of its own is taken for the answer
    of the stage. One that cancels a call in a thread cancels those who wait for it, and one that
    tells of a call out of time is made anew. -/
inductive Trait
  | plain
  | stop
  | stopping (answer : Except Failure Document)
  | cancelled
  | outOfTime

/-- An exception of any stage, with the failure that it would be told as. Its text may be such that
    asking for it raises another exception. -/
structure Thrown where
  failure : Failure
  trait : Trait := .plain
  hasText : Bool := true

instance : Coe Failure Thrown := ⟨fun f => { failure := f }⟩

/-- What a split can end in beside an answer: another exception, or nothing at all. -/
inductive Escape
  | unending
  | cancelled
  | untold (failure : Failure)

namespace Thrown

def stopped : Failure := .raised ⟨"RuntimeError", [.text "coroutine raised StopIteration"]⟩

def tell (e : Thrown) (f : Failure) : Fate Escape :=
  if e.hasText then .told f else .untold f (.untold f)

def fate (way : Way) (e : Thrown) : Fate Escape :=
  match way, e.trait with
  | .thread, .stop => .lost .unending
  | .thread, .cancelled => .lost .cancelled
  | .thread, .outOfTime => e.tell e.failure.remade
  | .coroutine, .stop | .coroutine, .stopping _ => .told stopped
  | _, _ => e.tell e.failure

def answer? (e : Thrown) : Option (Except Failure Document) :=
  match e.trait with
  | .stopping answer => some answer
  | _ => none

end Thrown

instance : Raises Thrown Escape := ⟨Thrown.fate, Thrown.answer?⟩

structure Script where
  validate : Path → Except Thrown Unit
  read : Path → Except Thrown Document
  extract : Text → Bool → Except Thrown (Assets × List Notice)
  emit : Assets → Path → Text → Text → Except Thrown Manifest
  package : Path → Except Thrown Path

namespace Script

def record {α : Type} (call : Call) (answer : Except Thrown α) : Work Thrown (List Call) α := do
  Task.become ((← Task.world) ++ [call])
  Task.ofExcept answer

def stages (s : Script) : Stages Thrown (List Call) where
  validate input := record (.validate input) (s.validate input)
  read input := record (.read input) (s.read input)
  extract page all := do
    let (assets, notices) ← record (.extract page all) (s.extract page all)
    notices.forM fun notice => Task.say .warning .extraction notice.message
    return assets
  emit assets dir appName appVersion :=
    record (.emit assets dir appName appVersion) (s.emit assets dir appName appVersion)
  package dir := record (.package dir) (s.package dir)

structure Faults where
  validate : Option Thrown := none
  read : Option Thrown := none
  extract : Option Thrown := none
  emit : Option Thrown := none
  package : Option Thrown := none

def faulty {α : Type} (fault : Option Thrown) (answer : Except Thrown α) : Except Thrown α :=
  match fault with
  | some e => .error e
  | none => answer

def rehearsal (page : Text) (locate : Locate) (faults : Faults) : Script where
  validate _ := faulty faults.validate (.ok ())
  read input := faulty faults.read (.ok ⟨input, page⟩)
  extract page all :=
    let plan := Plan.make page all
    faulty faults.extract (.ok (plan.assets, plan.notices))
  emit assets dir _ _ := faulty faults.emit (.ok (.planned assets dir))
  package dir := faulty faults.package ((dir.archive locate).mapError fun f => { failure := f })

end Script

end Unbundle
