import Unbundle.Path.Names
import Unbundle.Text

namespace Unbundle

structure Config where
  inputPath : Path
  outputDir : Path
  createZip : Bool
  appName : Option Text
  appVersion : Text
  extractAll : Bool

abbrev Fields := List (Text × Value)

namespace Fields

def get? (fields : Fields) (name : Text) : Option Value := fields.lookup name

/-- A field keeps its place when its value changes; a new one comes last. -/
def set (fields : Fields) (name : Text) (v : Value) : Fields :=
  if (fields.get? name).isSome then
    fields.map fun field => if field.1 = name then (name, v) else field
  else fields ++ [(name, v)]

def isUnset (fields : Fields) (name : Text) : Bool := (fields.get? name).all Value.isNull

end Fields

abbrev Checked (α : Type) := Except Complaint α

namespace Config

def defaultVersion : Text := "1.0.0"

variable [Schema]

def asPath (field : Text) (v : Value) : Checked Path :=
  (Schema.path v).mapError fun defect => ⟨field, defect, v⟩

def asFlag (field : Text) (v : Value) : Checked Bool :=
  (Schema.flag v).mapError fun defect => ⟨field, defect, v⟩

def asName (field : Text) (v : Value) : Checked Text :=
  match Schema.text v with
  | .ok t =>
    if t.trimBlank.isEmpty then .error ⟨field, .refused (field ++ " cannot be blank."), v⟩
    else .ok t.trimBlank
  | .error defect => .error ⟨field, defect, v⟩

def asOptionalName (field : Text) : Value → Checked (Option Text)
  | .null => .ok none
  | v => some <$> asName field v

def fieldNames : List Text :=
  ["input_path", "output_dir", "create_zip", "app_name", "app_version", "extract_all"]

def required {α : Type} (fields : Fields) (field : Text) (check : Value → Checked α) : Checked α :=
  match fields.get? field with
  | some v => check v
  | none => .error ⟨field, .missing, .dict fields⟩

def optional {α : Type} (fields : Fields) (field : Text) (default : α) (check : Value → Checked α) :
    Checked α :=
  match fields.get? field with
  | some v => check v
  | none => .ok default

def complaintOf {α : Type} : Checked α → List Complaint
  | .ok _ => []
  | .error c => [c]

def extras (fields : Fields) : List Complaint :=
  (fields.filter fun (name, _) => !fieldNames.contains name).map fun (name, v) =>
    ⟨name, .extra, v⟩

def ofFields (fields : Fields) : Except (List Complaint) Config :=
  let input := required fields "input_path" (asPath "input_path")
  let output := required fields "output_dir" (asPath "output_dir")
  let zip := optional fields "create_zip" false (asFlag "create_zip")
  let name := optional fields "app_name" none (asOptionalName "app_name")
  let version := optional fields "app_version" defaultVersion (asName "app_version")
  let all := optional fields "extract_all" false (asFlag "extract_all")
  match input, output, zip, name, version, all, extras fields with
  | .ok input, .ok output, .ok zip, .ok name, .ok version, .ok all, [] =>
    .ok ⟨input, output, zip, name, version, all⟩
  | _, _, _, _, _, _, extras =>
    .error (complaintOf input ++ complaintOf output ++ complaintOf zip ++ complaintOf name ++
      complaintOf version ++ complaintOf all ++ extras)

def namingPath : Value → Except Failure Path
  | .text t => .ok (.ofText t)
  | .path p => .ok p
  | v => .error (.notPathLike v.typeName)

/-- Without a name of its own the application is called after the output directory. -/
def nameApp (locate : Locate) (fields : Fields) : Except Failure Fields :=
  match fields.get? "output_dir" with
  | some output =>
    if fields.isUnset "app_name" && !output.isNull then do
      let name ← (← namingPath output).appName locate
      .ok (fields.set "app_name" (.text name))
    else .ok fields
  | none => .ok fields

def refusal (complaints : List Complaint) : Failure :=
  .badOptions complaints (Schema.report complaints)

/-- A value that names cannot be taken from is a complaint about all the fields together. -/
def check (locate : Locate) (fields : Fields) : Except Failure Config :=
  match nameApp locate fields with
  | .error f =>
    if f.title = "ValueError" then .error (refusal [⟨none, .refused f.message, .dict fields⟩])
    else .error f
  | .ok fields => (ofFields fields).mapError refusal

end Config

/-- What a caller asks for beside the input. The flags and names are checked with the input. -/
structure Options where
  outputDir : Option Path := none
  createZip : Value := .bool false
  appName : Value := .null
  appVersion : Value := .text Config.defaultVersion
  extractAll : Value := .bool false

namespace Options

def fields (o : Options) (input : Path) : Fields :=
  [("input_path", .path input), ("output_dir", .path (o.outputDir.getD input.defaultOutput)),
    ("create_zip", o.createZip), ("app_name", o.appName), ("app_version", o.appVersion),
    ("extract_all", o.extractAll)]

def typed (output : Option Path) (zip : Bool) (name : Option Text) (version : Text) (all : Bool) :
    Options where
  outputDir := output
  createZip := .bool zip
  appName := (name.map Value.text).getD .null
  appVersion := .text version
  extractAll := .bool all

def ofFields (fields : Fields) : Except Failure Options := do
  let output ←
    match fields.get? "output_dir" with
    | none | some .null => pure none
    | some v => some <$> Config.namingPath v
  .ok {
    outputDir := output
    createZip := (fields.get? "create_zip").getD (.bool false)
    appName := (fields.get? "app_name").getD .null
    appVersion := (fields.get? "app_version").getD (.text Config.defaultVersion)
    extractAll := (fields.get? "extract_all").getD (.bool false) }

def resolve [Schema] (o : Options) (locate : Locate) (input : Path) : Except Failure Config :=
  Config.check locate (o.fields input)

end Options

end Unbundle
