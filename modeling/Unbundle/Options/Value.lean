import Unbundle.Decimal
import Unbundle.Path
import Unbundle.Text.Quoted

namespace Unbundle

inductive Value
  | null
  | bool (b : Bool)
  | int (n : Int)
  | float (x : Float)
  | text (t : Text)
  | path (p : Path)
  | list (items : List Value)
  | dict (fields : List (Text × Value))

namespace Value

def typeName : Value → Text
  | .null => "NoneType"
  | .bool _ => "bool"
  | .int _ => "int"
  | .float _ => "float"
  | .text _ => "str"
  | .path _ => "PosixPath"
  | .list _ => "list"
  | .dict _ => "dict"

def isNull : Value → Bool
  | .null => true
  | _ => false

def intText : Int → Text
  | .ofNat n => Text.ofNat n
  | .negSucc n => "-" ++ Text.ofNat (n + 1)

mutual

def display : Value → Text
  | .null => "None"
  | .bool true => "True"
  | .bool false => "False"
  | .int n => intText n
  | .float x => Decimal.ofBits x.toBits.toNat
  | .text t => t.quoted
  | .path p => "PosixPath(" ++ p.toText.quoted ++ ")"
  | .list items => "[" ++ Text.joinWith ", " (displayItems items) ++ "]"
  | .dict fields => "\x7b" ++ Text.joinWith ", " (displayFields fields) ++ "\x7d"

def displayItems : List Value → List Text
  | [] => []
  | v :: vs => v.display :: displayItems vs

def displayFields : List (Text × Value) → List Text
  | [] => []
  | (name, v) :: fields => (name.quoted ++ ": " ++ v.display) :: displayFields fields

end

end Value

inductive Defect
  | missing
  | extra
  | notAPath
  | notText
  | notABoolean
  | unclearBoolean
  | refused (reason : Text)

structure Complaint where
  field : Option Text
  defect : Defect
  input : Value

/-- The library that the fields are checked with: how it reads values of each type, and how it
    reports complaints. Values of the very type are taken as they are. -/
class Schema where
  path : Value → Except Defect Path
  flag : Value → Except Defect Bool
  text : Value → Except Defect Text
  report : List Complaint → Text
  path_path : ∀ p, path (.path p) = .ok p
  flag_bool : ∀ b, flag (.bool b) = .ok b
  text_text : ∀ t, text (.text t) = .ok t

end Unbundle
