import Unbundle.Options.Value
import Unbundle.Text.Utf8

namespace Unbundle

def Defect.type : Defect → Text
  | .missing => "missing"
  | .extra => "extra_forbidden"
  | .notAPath => "path_type"
  | .notText => "string_type"
  | .notABoolean => "bool_type"
  | .unclearBoolean => "bool_parsing"
  | .refused _ => "value_error"

def Defect.message : Defect → Text
  | .missing => "Field required"
  | .extra => "Extra inputs are not permitted"
  | .notAPath => "Input is not a valid path for <class 'pathlib.Path'>"
  | .notText => "Input should be a valid string"
  | .notABoolean => "Input should be a valid boolean"
  | .unclearBoolean => "Input should be a valid boolean, unable to interpret input"
  | .refused reason => "Value error, " ++ reason

namespace Complaint

def beginning (size : Nat) : Text → Text
  | [] => []
  | s :: rest =>
    let width := (Utf8.symBytes s).length
    if width ≤ size then s :: beginning (size - width) rest else []

def abridged (t : Text) : Text :=
  if (Utf8.encode t).length ≤ 50 then t
  else beginning 25 t ++ "..." ++ (beginning 24 t.reverse).reverse

def message (c : Complaint) : Text :=
  (match c.field with
    | some field => field ++ "\n"
    | none => []) ++
    "  " ++ c.defect.message ++ " [type=" ++ c.defect.type ++ ", input_value=" ++
    abridged c.input.display ++ ", input_type=" ++ c.input.typeName ++ "]"

def report (complaints : List Complaint) : Text :=
  Text.ofNat complaints.length ++
    (if complaints.length = 1 then " validation error" else " validation errors") ++
    " for SplitConfig" ++ (complaints.map fun c => ("\n" : Text) ++ c.message).flatten

end Complaint

namespace Coercion

def equalsIgnoringCase (t word : Text) : Bool :=
  t.map (fun | .scalar c => .scalar c.toLower | s => s) == word

def trueWords : List Text := ["1", "on", "t", "true", "y", "yes"]

def falseWords : List Text := ["0", "off", "f", "false", "n", "no"]

def floatLimit : Nat := Nat.pow 2 1024 - Nat.pow 2 970

def flag : Value → Except Defect Bool
  | .bool b => .ok b
  | .text t =>
    if trueWords.any (equalsIgnoringCase t) then .ok true
    else if falseWords.any (equalsIgnoringCase t) then .ok false
    else .error .unclearBoolean
  | .int n =>
    if n = 1 then .ok true
    else if n = 0 then .ok false
    else if n.natAbs < floatLimit then .error .unclearBoolean
    else .error .notABoolean
  | .float x =>
    if x == 1.0 then .ok true
    else if x == 0.0 then .ok false
    else if x.floor == x && !x.isInf then .error .unclearBoolean
    else .error .notABoolean
  | _ => .error .notABoolean

def path : Value → Except Defect Path
  | .text t => .ok (.ofText t)
  | .path p => .ok p
  | _ => .error .notAPath

def text : Value → Except Defect Text
  | .text t => .ok t
  | _ => .error .notText

/-- The coercions of the library that the program is released with. -/
scoped instance : Schema where
  path
  flag
  text
  report := Complaint.report
  path_path _ := rfl
  flag_bool _ := rfl
  text_text _ := rfl

end Coercion

end Unbundle
