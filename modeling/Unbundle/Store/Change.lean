import Unbundle.Store.Lookup

namespace Unbundle.Store

/-- Replaces what a file holds, or makes the file; a device swallows what is written. -/
def write (s : Store) (p : Path) (content : Content) : Except PathFault Store := do
  match ← s.lookup .create p with
  | .found place (.file _ _) => .ok (s.put place (.file content none))
  | .found _ .dir => .error (refusal .isDirectory p)
  | .found _ .device => .ok s
  | .found _ (.link _) => .error (refusal .tooManyLinks p)
  | .vacant parent name => .ok (s.put (parent ++ [name]) (.file content none))

def makeDir (s : Store) (p : Path) : Except PathFault Store := do
  match ← s.lookup .keepLink p with
  | .found _ _ => .error (refusal .alreadyExists p)
  | .vacant parent name => .ok (s.put (parent ++ [name]) .dir)

def accept (s : Store) (p : Path) (r : Refusal) : Except PathFault Store :=
  match s.isDir p with
  | .ok true => .ok s
  | .ok false => .error (.refused r)
  | .error r => .error (.refused r)

def makeLast (s : Store) (p : Path) : Except PathFault Store :=
  match s.makeDir p with
  | .error (.refused r) =>
    if r.cause = .noEntry then .error (.refused r) else s.accept p r
  | result => result

/-- Makes a directory and those above it, where missing. What was made before a fault stays. -/
def makeDirs (s : Store) (p : Path) : Store × Option PathFault :=
  match s.makeDir p with
  | .ok s => (s, none)
  | .error .nul => (s, some .nul)
  | .error (.refused r) =>
    if r.cause = .noEntry then
      if p.parts.isEmpty then (s, some (.refused r))
      else
        match makeDirs s p.parent with
        | (s, some fault) => (s, some fault)
        | (s, none) =>
          match s.makeLast p with
          | .ok s => (s, none)
          | .error fault => (s, some fault)
    else
      match s.accept p r with
      | .ok s => (s, none)
      | .error fault => (s, some fault)
termination_by p.parts.length
decreasing_by
  rename_i nonempty
  have := List.length_pos_iff.mpr (by simpa using nonempty : p.parts ≠ [])
  simp only [Path.parent, List.length_dropLast]
  omega

def addFile (s : Store) (p : Path) (data : List UInt8) : Store × Option PathFault :=
  match s.makeDirs p.parent with
  | (s, some fault) => (s, some fault)
  | (s, none) =>
    match s.write p (.bytes data) with
    | .ok s => (s, none)
    | .error fault => (s, some fault)

def addLink (s : Store) (p : Path) (target : Text) : Except PathFault Store := do
  match ← s.lookup .keepLink p with
  | .found _ _ => .error (refusal .alreadyExists p)
  | .vacant parent name => .ok (s.put (parent ++ [name]) (.link target))

def remove (s : Store) (p : Path) : Except PathFault Store := do
  match ← s.lookup .keepLink p with
  | .found place _ =>
    .ok { s with entries := s.entries.filter fun (other, _) => !place.isPrefixOf other }
  | .vacant _ _ => .error (refusal .noEntry p)

def setTime (s : Store) (p : Path) (time : Int) : Except PathFault Store := do
  match ← s.entry p with
  | (place, .file content _) => .ok (s.put place (.file content (some time)))
  | _ => .ok s

def enter (s : Store) (p : Path) : Except PathFault Store := do
  match ← s.entry p with
  | (place, .dir) => .ok { s with cwd := place }
  | _ => .error (refusal .notDirectory p)

def tree (s : Store) (place : Place) : List (Text × Node) :=
  let found := s.entries.filterMap fun (p, node) =>
    if place.isPrefixOf p && p != place then
      some (Text.joinWith "/" (p.drop place.length), node)
    else none
  found.mergeSort fun a b => a.1 ≤ b.1

end Unbundle.Store
