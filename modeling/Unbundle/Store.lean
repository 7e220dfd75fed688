import Unbundle.Text.Quoted
import Unbundle.Archive.Zip
import Unbundle.Text.Utf8

namespace Unbundle

inductive Cause
  | noEntry
  | alreadyExists
  | notDirectory
  | isDirectory
  | nameTooLong
  | tooManyLinks
deriving DecidableEq

namespace Cause

def number : Cause → Nat
  | .noEntry => 2
  | .alreadyExists => 17
  | .notDirectory => 20
  | .isDirectory => 21
  | .nameTooLong => 36
  | .tooManyLinks => 40

def text : Cause → Text
  | .noEntry => "No such file or directory"
  | .alreadyExists => "File exists"
  | .notDirectory => "Not a directory"
  | .isDirectory => "Is a directory"
  | .nameTooLong => "File name too long"
  | .tooManyLinks => "Too many levels of symbolic links"

def title : Cause → Text
  | .noEntry => "FileNotFoundError"
  | .alreadyExists => "FileExistsError"
  | .notDirectory => "NotADirectoryError"
  | .isDirectory => "IsADirectoryError"
  | .nameTooLong => "OSError"
  | .tooManyLinks => "OSError"

end Cause

structure Refusal where
  cause : Cause
  path : Option Text

def Refusal.message (r : Refusal) : Text :=
  "[Errno " ++ Text.ofNat r.cause.number ++ "] " ++ r.cause.text ++
    match r.path with
    | some path => ": " ++ path.quoted
    | none => []

inductive PathFault
  | nul
  | refused (r : Refusal)

abbrev Place := List Text

inductive Content
  | bytes (data : List UInt8)
  | archive (entries : List (Text × Content))

mutual

def Content.data : Content → List UInt8
  | .bytes data => data
  | .archive entries => Zip.bytes (Content.members entries)

def Content.members : List (Text × Content) → List Zip.Member
  | [] => []
  | (name, content) :: entries => ⟨Utf8.encode name, content.data⟩ :: Content.members entries

end

/-- The time of a file counts in seconds from 1970; a file without one was changed just now. -/
inductive Node
  | dir
  | file (content : Content) (time : Option Int)
  | link (target : Text)
  | device

/-- Whoever works here may read and write every file and enter every directory. -/
structure Store where
  entries : List (Place × Node)
  cwd : Place

namespace Store

def node? (s : Store) (place : Place) : Option Node :=
  if place = [] then some .dir else s.entries.lookup place

/-- An entry keeps its position when it changes; a new one comes last. -/
def put (s : Store) (place : Place) (node : Node) : Store :=
  { s with
    entries :=
      if (s.entries.lookup place).isSome then
        s.entries.map fun entry => if entry.1 = place then (place, node) else entry
      else s.entries ++ [(place, node)] }

end Store

end Unbundle
