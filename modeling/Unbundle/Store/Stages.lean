import Unbundle.Split
import Unbundle.Store.Locate
import Unbundle.Store.Change

namespace Unbundle.Store

def validate (s : Store) (input : Path) : Except Failure Unit :=
  match s.entry input with
  | .ok (_, .file _ _) => .ok ()
  | .ok (_, .dir) => .error (.isDirectory input)
  | .ok (_, _) => .error (.notRegular input)
  | .error .nul => .error .nul
  | .error (.refused r) =>
    if r.cause = .noEntry then .error (.absent input) else .error (.unreachable input r)

/-- What a path leads to, byte for byte. A device has nothing to tell. -/
def contents (s : Store) (input : Path) : Except Failure (List UInt8) :=
  match s.entry input with
  | .ok (_, .file content _) => .ok content.data
  | .ok (_, .dir) => .error (.unreadable input ⟨.isDirectory, some input.toText⟩)
  | .ok (_, _) => .ok []
  | .error .nul => .error .nul
  | .error (.refused r) => .error (.unreadable input r)

def readPage (s : Store) (input : Path) : Except Failure Document := do
  let data ← s.contents input
  .ok ⟨← s.locate input, Utf8.decode data⟩

def failureAt (target : Path) : PathFault → Failure
  | .nul => .nul
  | .refused r => .unwritable target r

def ensureDir (dir : Path) : Task Store Unit := do
  let (s, fault) := (← Task.world).makeDirs dir
  Task.become s
  match fault with
  | some fault => Task.fail (failureAt dir fault)
  | none =>
    match s.isDir dir with
    | .ok true => return
    | .ok false => Task.fail (.notDirectory dir)
    | .error r => Task.fail (.refused r)

def writeText (target : Path) (t : Text) : Task Store Unit := do
  match (← Task.world).write target (.bytes (Utf8.encode t)) with
  | .error fault => Task.fail (failureAt target fault)
  | .ok s =>
    Task.become s
    Task.say .debug .writing
      ("wrote " ++ target.toText ++ " (" ++ Text.ofNat t.length ++ " chars)")

def emit (assets : Assets) (dir : Path) (appName appVersion : Text) : Task Store Manifest := do
  ensureDir dir
  (Manifest.files assets dir appName appVersion).forM fun (target, t) => writeText target t
  return .planned assets dir

def below (s : Store) (place : Place) : List (Place × Node) :=
  s.entries.filterMap fun (p, node) =>
    if place.isPrefixOf p && p != place then some (p.drop place.length, node) else none

def isPackable (s : Store) (dir : Path) (names : Place) : Except Refusal Bool :=
  s.isFile { dir with parts := dir.parts ++ names }

/-- The names of all files below a directory, step by step in order. Linked directories are not
    entered. -/
def fileNames (s : Store) (dir : Path) (place : Place) : Except Refusal (List Place) := do
  let names ← ((s.below place).map (·.1)).filterM (s.isPackable dir)
  .ok (names.mergeSort fun a b => a ≤ b)

def collect (s : Store) (dir : Path) : Except Failure (List Place) :=
  match s.isDir dir with
  | .error r => .error (.refused r)
  | .ok false => .error (.noOutput dir)
  | .ok true =>
    match s.entry dir with
    | .error _ => .error (.noOutput dir)
    | .ok (place, _) =>
      match s.fileNames dir place with
      | .error r => .error (.refused r)
      | .ok [] => .error (.nothingToPack dir)
      | .ok names => .ok names

/-- The first seconds of 1980 and of 2108, between which archives can date their members. -/
def datesFrom : Int := 315532800

def datesTo : Int := 4354819200

/-- A file as a member of an archive, by a name that has to be text. -/
def memberAt (s : Store) (p : Path) (name : Text) : Except Failure Content :=
  match s.entry p with
  | .ok (_, .file content time) =>
    if time.any (· < datesFrom) then .error .tooOld
    else match Utf8.stray? name with
      | some stray => .error (.unspelt stray)
      | none => if time.any (datesTo ≤ ·) then .error .tooNew else .ok content
  | .ok _ => .ok (.bytes [])
  | .error .nul => .error .nul
  | .error (.refused r) => .error (.refused r)

/-- Adds members one by one, so that a fault leaves an archive of those before it. -/
def fill (archive : Path) (dir : Path) (done : List (Text × Content)) :
    List Place → Task Store Unit
  | [] => return
  | names :: rest => do
    let s ← Task.world
    match s.memberAt { dir with parts := dir.parts ++ names } (Text.joinWith "/" names) with
    | .error (.refused r) => Task.fail (.unpackable archive r)
    | .error f => Task.fail f
    | .ok content =>
      let done := done ++ [(Text.joinWith "/" names, content)]
      match s.write archive (.archive done) with
      | .error .nul => Task.fail .nul
      | .error (.refused r) => Task.fail (.unpackable archive r)
      | .ok s =>
        Task.become s
        fill archive dir done rest

def package (dir : Path) : Task Store Path := do
  let s ← Task.world
  let names ← Task.ofExcept (s.collect dir)
  let archive ← Task.ofExcept (dir.archive s.locate)
  match s.write archive (.archive []) with
  | .error .nul => Task.fail .nul
  | .error (.refused r) => Task.fail (.unpackable archive r)
  | .ok s =>
    Task.become s
    fill archive dir [] names
    Task.say .info .packing
      ("archived " ++ Text.ofNat names.length ++ " files into " ++ archive.toText)
    return archive

def stages : Stages Failure Store where
  validate input := do Task.ofExcept ((← Task.world).validate input)
  read input := do Task.ofExcept ((← Task.world).readPage input)
  extract := extraction
  emit := emit
  package := package

end Unbundle.Store
