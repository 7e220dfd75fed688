import Unbundle.Text

namespace Unbundle

/-- Exactly two leading slashes are a root of their own. -/
inductive Root
  | relative
  | slash
  | doubleSlash
deriving DecidableEq

structure Path where
  root : Root
  parts : List Text
deriving DecidableEq

namespace Path

def separator : Sym := .scalar '/'

def steps (t : Text) : List Text :=
  (t.splitOn separator).filter fun step => !step.isEmpty && step != "."

def rootOf (t : Text) : Root :=
  match (t.takeWhile (· == separator)).length with
  | 0 => .relative
  | 2 => .doubleSlash
  | _ => .slash

def ofText (t : Text) : Path := ⟨rootOf t, steps t⟩

def rootText : Root → Text
  | .relative => []
  | .slash => "/"
  | .doubleSlash => "//"

def toText (p : Path) : Text :=
  match p.root, p.parts with
  | .relative, [] => "."
  | root, parts => rootText root ++ Text.joinWith "/" parts

def name (p : Path) : Text := p.parts.getLast?.getD []

def parent (p : Path) : Path := { p with parts := p.parts.dropLast }

/-- A name up to its last dot, unless that dot stands at an end of the name. -/
def stemOf (name : Text) : Text :=
  let suffix := (name.reverse.takeWhile (· != .scalar '.')).reverse
  let size := name.length - suffix.length - 1
  if suffix.isEmpty || size = 0 || suffix.length = name.length then name else name.take size

def stem (p : Path) : Text := stemOf p.name

def join (p : Path) (t : Text) : Path :=
  match rootOf t with
  | .relative => { p with parts := p.parts ++ steps t }
  | _ => ofText t

def child (p : Path) (name : Text) : Path := { p with parts := p.parts ++ [name] }

def withName (p : Path) (name : Text) : Path := p.parent.child name

def isNameless (p : Path) : Bool := p.name.isEmpty || p.name == ".."

def hasNul (p : Path) : Bool := p.parts.any (·.contains (.scalar '\x00'))

end Path

end Unbundle
