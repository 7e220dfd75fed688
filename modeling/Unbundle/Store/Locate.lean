import Unbundle.Path.Names
import Unbundle.Store.Lookup

namespace Unbundle.Store

/-- Takes `..` for the place above, whatever stands there. -/
def lexical (place : Place) : List Text → Place
  | [] => place
  | step :: steps =>
    if step = ".." then lexical place.dropLast steps else lexical (place ++ [step]) steps

def placeOf (s : Store) (p : Path) : Place := lexical (s.origin p) p.parts

/-- One step up. A relative path climbs above its start by steps up in front. -/
def above (p : Path) : Path :=
  if p.root = .relative && (p.parts.isEmpty || p.name == "..") then p.child ".." else p.parent

def resume (p : Path) (steps : List Text) : Path := p.join (Text.joinWith "/" steps)

/-- What the link at a path says, if one is there. A path that cannot be asked for has no link. -/
def linkAt (s : Store) (p : Path) : Option Text :=
  match s.lookup .keepLink p with
  | .ok (.found _ (.link target)) => some target
  | _ => none

/-- Resolves links as far as they lead somewhere. `pending` holds the links being resolved, as they
    are spelt: one of them met again is a loop, from which on the steps are taken as they stand.
    Links nest at most `depth` deep. -/
def settle (s : Store) (depth : Nat) (pending : List Path) (p : Path) : List Text → Path × Bool
  | [] => (p, true)
  | step :: steps =>
    if step = [] ∨ step = "." then settle s depth pending p steps
    else if step = ".." then settle s depth pending (above p) steps
    else
      match s.linkAt (p.child step) with
      | none => settle s depth pending (p.child step) steps
      | some target =>
        match depth with
        | 0 => (resume (p.child step) steps, false)
        | depth' + 1 =>
          if pending.contains (p.child step) then (resume (p.child step) steps, false)
          else
            match settle s depth' (p.child step :: pending)
                (if Path.rootOf target = .relative then p else ⟨.slash, []⟩)
                (target.splitOn Path.separator) with
            | (reached, true) => settle s (depth' + 1) pending reached steps
            | (reached, false) => (resume reached steps, false)
termination_by steps => (depth, steps.length)

def ofPlace (place : Place) : Path := ⟨.slash, place⟩

def start (p : Path) : Path := if p.root = .relative then ⟨.relative, []⟩ else ⟨.slash, []⟩

/-- More links can nest than a lookup follows. -/
def depthLimit (s : Store) : Nat := linkLimit + (s.entries.length + 1) * (s.cwd.length + 2)

def resolved (s : Store) (p : Path) : Path :=
  ofPlace (s.placeOf (s.settle s.depthLimit [] (start p) p.parts).1)

def locate (s : Store) : Locate := fun p =>
  if p.hasNul then .error .nul
  else if p.root = .relative && (s.node? s.cwd).isNone then .error (.refused ⟨.noEntry, none⟩)
  else
    match s.entry (s.resolved p) with
    | .error (.refused ⟨.tooManyLinks, _⟩) => .error (.linkLoop (s.resolved p))
    | _ => .ok (s.resolved p)

end Unbundle.Store
