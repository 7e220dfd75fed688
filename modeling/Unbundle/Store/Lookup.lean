import Unbundle.Path
import Unbundle.Store

namespace Unbundle

inductive Target
  | found (place : Place) (node : Node)
  | vacant (parent : Place) (name : Text)

namespace Store

def nameLimit : Nat := 255

def pathLimit : Nat := 4096

def linkLimit : Nat := 40

inductive Ending
  | keepLink
  | followLink
  | create
deriving DecidableEq

/-- The steps of a link target. A closing slash asks for a directory and leaves an empty step. -/
def targetSteps (target : Text) : List Text :=
  let steps := (target.splitOn Path.separator).filter (!·.isEmpty)
  if target.endsWith "/" then steps ++ [[]] else steps

/-- Follows steps from a place. Only `links` more links are followed. What is to be created cannot
    be spelt with a closing slash. -/
def walk (s : Store) (ending : Ending) (links : Nat) (place : Place) :
    List Text → Except Cause Target
  | [] =>
    match s.node? place with
    | some node => .ok (.found place node)
    | none => .error .noEntry
  | step :: steps =>
    match s.node? place with
    | none => .error .noEntry
    | some .dir =>
      if step = [] ∨ step = "." then walk s ending links place steps
      else if step = ".." then walk s ending links place.dropLast steps
      else if ending = .create ∧ steps = [[]] then .error .isDirectory
      else if nameLimit < (Utf8.encode step).length then .error .nameTooLong
      else
        match s.node? (place ++ [step]) with
        | none => if steps.isEmpty then .ok (.vacant place step) else .error .noEntry
        | some (.link target) =>
          if steps.isEmpty && ending = .keepLink then
            .ok (.found (place ++ [step]) (.link target))
          else
            match links with
            | 0 => .error .tooManyLinks
            | links + 1 =>
              walk s ending links (if Path.rootOf target = .relative then place else [])
                (targetSteps target ++ steps)
        | some _ => walk s ending links (place ++ [step]) steps
    | some _ => .error .notDirectory
termination_by steps => (links, steps.length)

def origin (s : Store) (p : Path) : Place := if p.root = .relative then s.cwd else []

def refusal (cause : Cause) (p : Path) : PathFault := .refused ⟨cause, some p.toText⟩

def lookup (s : Store) (ending : Ending) (p : Path) : Except PathFault Target :=
  if p.hasNul then .error .nul
  else if pathLimit ≤ (Utf8.encode p.toText).length then .error (refusal .nameTooLong p)
  else (s.walk ending linkLimit (s.origin p) p.parts).mapError (refusal · p)

def entry (s : Store) (p : Path) : Except PathFault (Place × Node) := do
  match ← s.lookup .followLink p with
  | .found place node => .ok (place, node)
  | .vacant _ _ => .error (refusal .noEntry p)

def holds (s : Store) (p : Path) (sort : Node → Bool) : Except Refusal Bool :=
  match s.entry p with
  | .ok (_, node) => .ok (sort node)
  | .error .nul => .ok false
  | .error (.refused r) => if r.cause = .nameTooLong then .error r else .ok false

def isDir (s : Store) (p : Path) : Except Refusal Bool :=
  s.holds p fun | .dir => true | _ => false

def isFile (s : Store) (p : Path) : Except Refusal Bool :=
  s.holds p fun | .file _ _ => true | _ => false

end Store

end Unbundle
