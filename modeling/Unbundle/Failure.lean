import Unbundle.Options.Value
import Unbundle.Store
import Unbundle.Text.Utf8

namespace Unbundle

structure Raised where
  title : Text
  args : List Value

namespace Raised

def plain : Value → Text
  | .text t => t
  | .path p => p.toText
  | v => v.display

def osTitles : List Text :=
  ["OSError", "FileNotFoundError", "FileExistsError", "NotADirectoryError", "IsADirectoryError",
    "PermissionError", "InterruptedError", "BlockingIOError", "ChildProcessError",
    "ProcessLookupError", "TimeoutError", "ConnectionError", "BrokenPipeError",
    "ConnectionAbortedError", "ConnectionRefusedError", "ConnectionResetError"]

def titleOfNumber : Int → Text
  | 1 | 13 => "PermissionError"
  | 2 => "FileNotFoundError"
  | 3 => "ProcessLookupError"
  | 4 => "InterruptedError"
  | 10 => "ChildProcessError"
  | 11 | 114 | 115 => "BlockingIOError"
  | 17 => "FileExistsError"
  | 20 => "NotADirectoryError"
  | 21 => "IsADirectoryError"
  | 32 | 108 => "BrokenPipeError"
  | 103 => "ConnectionAbortedError"
  | 104 => "ConnectionResetError"
  | 110 => "TimeoutError"
  | 111 => "ConnectionRefusedError"
  | _ => "OSError"

def number? : Value → Option Int
  | .int n => some n
  | .bool b => some (if b then 1 else 0)
  | _ => none

def reportedTitle (r : Raised) : Text :=
  match r.args with
  | number :: _ :: more =>
    if r.title = "OSError" && more.length ≤ 3 then
      ((number? number).map titleOfNumber).getD r.title
    else r.title
  | _ => r.title

/-- Whether a value in the place of a path counts written bytes instead, which are not shown. -/
def countsWritten (r : Raised) : Value → Bool
  | .int _ | .bool _ => r.reportedTitle = "BlockingIOError"
  | _ => false

def systemMessage (number text path path' : Value) : Text :=
  let second : Text := if path'.isNull then [] else " -> " ++ path'.display
  "[Errno " ++ plain number ++ "] " ++ plain text ++
    (if path.isNull then [] else ": " ++ path.display ++ second : Text)

def listed : List Value → Text
  | [] => []
  | [v] => plain v
  | vs => "(" ++ Text.joinWith ", " (vs.map Value.display) ++ ")"

def message (r : Raised) : Text :=
  if r.title = "WriteError" then
    match r.args with
    | [target, reason] =>
      "Failed to write " ++ (Path.ofText (plain target)).toText ++ ": " ++ plain reason
    | args => listed args
  else if r.title = "KeyError" then
    match r.args with
    | [key] => key.display
    | args => listed args
  else if osTitles.contains r.title then
    match r.args with
    | [number, text] => systemMessage number text .null .null
    | [number, text, path] | [number, text, path, _] =>
      systemMessage number text (if r.countsWritten path then .null else path) .null
    | [number, text, path, _, path'] =>
      systemMessage number text (if r.countsWritten path then .null else path) path'
    | args => listed args
  else listed r.args

/-- The same anew, without the paths of a system error. -/
def remade (r : Raised) : Raised :=
  { r with args := if r.args.length ≤ 5 then r.args.take 2 else r.args }

end Raised

inductive Failure
  | absent (input : Path)
  | unreachable (input : Path) (refusal : Refusal)
  | isDirectory (input : Path)
  | notRegular (input : Path)
  | unreadable (input : Path) (refusal : Refusal)
  | badOptions (complaints : List Complaint) (report : Text)
  | unwritable (target : Path) (refusal : Refusal)
  | notDirectory (target : Path)
  | noOutput (dir : Path)
  | nothingToPack (dir : Path)
  | unpackable (archive : Path) (refusal : Refusal)
  | nul
  | unnamed (path : Path)
  | linkLoop (place : Path)
  | tooOld
  | tooNew
  | unspelt (stray : Utf8.Stray)
  | refused (refusal : Refusal)
  | notPathLike (typeName : Text)
  | illFormed (fault : Utf8.Fault)
  | raised (r : Raised)

namespace Failure

def title : Failure → Text
  | .absent _ => "NotFoundError"
  | .unreachable _ _ | .isDirectory _ | .notRegular _ | .unreadable _ _ | .badOptions _ _ =>
    "InvalidInputError"
  | .unwritable _ _ | .notDirectory _ => "WriteError"
  | .noOutput _ | .nothingToPack _ | .unpackable _ _ => "PackagingError"
  | .nul | .unnamed _ | .tooOld => "ValueError"
  | .linkLoop _ => "RuntimeError"
  | .tooNew => "error"
  | .unspelt _ => "UnicodeEncodeError"
  | .refused r => r.cause.title
  | .notPathLike _ => "TypeError"
  | .illFormed _ => "UnicodeDecodeError"
  | .raised r => r.reportedTitle

def message : Failure → Text
  | .absent p => "Input file not found: " ++ p.toText
  | .unreachable p r => "Cannot stat input path " ++ p.toText ++ ": " ++ r.message
  | .isDirectory p => "Input path is a directory, not a file: " ++ p.toText
  | .notRegular p => "Input path is not a regular file: " ++ p.toText
  | .unreadable p r => "Failed to read " ++ p.toText ++ ": " ++ r.message
  | .badOptions _ report => "Invalid split options: " ++ report
  | .unwritable p r => "Failed to write " ++ p.toText ++ ": " ++ r.message
  | .notDirectory p =>
    "Failed to write " ++ p.toText ++ ": output path exists and is not a directory"
  | .noOutput p => "Output directory does not exist: " ++ p.toText
  | .nothingToPack p => "Nothing to archive: " ++ p.toText ++ " is empty"
  | .unpackable p r => "Failed to create archive " ++ p.toText ++ ": " ++ r.message
  | .nul => "embedded null byte"
  | .unnamed p => (Value.path p).display ++ " has an empty name"
  | .linkLoop p => "Symlink loop from " ++ p.toText.quoted
  | .tooOld => "ZIP does not support timestamps before 1980"
  | .tooNew => "ushort format requires 0 <= number <= 65535"
  | .unspelt s => s.message
  | .refused r => r.message
  | .notPathLike type => "expected str, bytes or os.PathLike object, not " ++ type
  | .illFormed f => f.message
  | .raised r => r.message

def expectedTitles : List Text :=
  ["SplitterError", "NotFoundError", "InvalidInputError", "WriteError", "PackagingError"]

def isExpected (f : Failure) : Bool := expectedTitles.contains f.title

def exitCode (f : Failure) : Nat :=
  if f.title = "NotFoundError" ∨ f.title = "InvalidInputError" then 2 else 1

def describe (f : Failure) : Text := f.title ++ ": " ++ f.message

def remade : Failure → Failure
  | .raised r => .raised r.remade
  | f => f

end Failure

end Unbundle
