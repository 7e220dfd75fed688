import Unbundle.Command
import Unbundle.Options.Coercion

namespace Unbundle

def Text.systemName (t : Text) : String :=
  .ofList (t.map fun | .scalar c => c | .raw _ => '\uFFFD')

def Path.systemFile (p : Path) := IO.FS.DirEntry.path ⟨".", p.toText.systemName⟩

namespace Store

def realPlace (p : Path) : IO Place := do
  return (Path.ofText (← IO.FS.realPath p.systemFile).toString).parts

def isLink (p : Path) : IO Bool := do
  match ← p.systemFile.symlinkMetadata.toBaseIO with
  | .ok info => return info.type == .symlink
  | .error _ => return false

def loadNode (p : Path) (info : IO.FS.Metadata) : IO Node := do
  match info.type with
  | .dir => return .dir
  | .file =>
    let data ← IO.FS.readBinFile p.systemFile
    return .file (.bytes data.toList) (some info.modified.sec)
  | _ => return .device

def putBelow (s : Store) (place : Place) (node : Node) : Store :=
  ((List.range place.length).foldl (fun s n => s.put (place.take n) .dir) s).put place node

def loadEntry (s : Store) (p : Path) : IO Store := do
  match ← p.systemFile.metadata.toBaseIO with
  | .error _ => return s
  | .ok info =>
    let place ← realPlace p
    let s := s.putBelow place (← loadNode p info)
    if ← isLink p then
      return s.putBelow ((← realPlace p.parent) ++ [p.name]) (.link (ofPlace place).toText)
    else return s

def loadAlong (s : Store) (p : Path) : IO Store :=
  (List.range (p.parts.length + 1)).foldlM
    (fun s n => s.loadEntry { p with parts := p.parts.take n }) s

partial def loadBelow (s : Store) (p : Path) : IO Store := do
  match ← p.systemFile.readDir.toBaseIO with
  | .error _ => return s
  | .ok found =>
    found.foldlM (fun s entry => do
      let below := p.child entry.fileName
      let s ← s.loadEntry below
      if ← isLink below then return s else s.loadBelow below) s

def loadFor (s : Store) : Command → IO Store
  | .help => return s
  | .inspect _ input _ => s.loadAlong input
  | .split _ asked => do
    let output := asked.outputDir.getD asked.input.defaultOutput
    let s ← (← (← s.loadAlong asked.input).loadAlong output).loadBelow output
    match output.archive s.locate with
    | .ok archive => s.loadAlong archive
    | .error _ => return s

def save (before after : Store) : IO Unit :=
  after.entries.forM fun (place, node) => do
    let file := (ofPlace place).systemFile
    match node with
    | .dir => if (before.node? place).isNone then IO.FS.createDir file
    | .file content none => IO.FS.writeBinFile file ⟨content.data.toArray⟩
    | _ => return

end Store

def Screen.print (s : Screen) : IO UInt32 := do
  (← IO.getStdout).write ⟨(Utf8.encode s.stdout).toArray⟩
  (← IO.getStderr).write ⟨(Utf8.encode s.stderr).toArray⟩
  return s.exitCode.toUInt32

def Report.ofUsageError (e : UsageError) : Report :=
  let usage := Command.usage.map fun line => (Stream.err, line)
  match e with
  | .noArguments => ⟨2, [], usage⟩
  | e => ⟨2, [], (.err, e.title) :: usage⟩

end Unbundle

open Unbundle Coercion in
def main (args : List String) : IO UInt32 := do
  match Command.read (args.map fun (word : String) => (word : Text)) with
  | .error e => ((Report.ofUsageError e).shown .plain).print
  | .ok command =>
    let cwd ← Store.realPlace ⟨.relative, []⟩
    let before ← Store.loadFor ⟨[], cwd⟩ command
    let (report, after) := command.run before
    before.save after
    (report.shown .plain).print
