import Unbundle.Failure
import Unbundle.Text.Lower

namespace Unbundle

abbrev Locate := Path → Except Failure Path

namespace Path

/-- The input without its suffix, beside it; a name without a suffix gets one more word, since it
    would else be its own output. -/
def defaultOutput (input : Path) : Path :=
  if input.stem = input.name then input.parent.join (input.name ++ "-app")
  else input.parent.join input.stem

/-- The path itself, or its absolute spelling where its last step is no name. -/
def named (locate : Locate) (p : Path) : Except Failure Path :=
  if p.isNameless then locate p else .ok p

def archive (locate : Locate) (dir : Path) : Except Failure Path := do
  let dir ← dir.named locate
  if dir.name.isEmpty then .error (.unnamed dir) else .ok (dir.withName (dir.name ++ ".zip"))

def isSlugSym : Sym → Bool
  | .scalar c => ('a' ≤ c && c ≤ 'z') || ('0' ≤ c && c ≤ '9') || c == '.' || c == '_' || c == '-'
  | .raw _ => false

def dashed (inRun : Bool) : Text → Text
  | [] => []
  | s :: rest =>
    if isSlugSym s then s :: dashed false rest
    else if inRun then dashed true rest
    else .scalar '-' :: dashed true rest

def slug (name : Text) : Text := (dashed false name.lower).trim (·.isOneOf ['-', '.', '_'])

def defaultAppName : Text := "electron-app"

def appNameOf (name : Text) : Text := if (slug name).isEmpty then defaultAppName else slug name

def appName (locate : Locate) (dir : Path) : Except Failure Text := do
  let dir ← dir.named locate
  .ok (appNameOf dir.name)

end Path

end Unbundle
