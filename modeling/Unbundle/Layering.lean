import Unbundle.Store.Locate

namespace Unbundle

structure LayerRule where
  dir : Text
  banned : List Text

namespace Layering

def rules : List LayerRule :=
  [⟨"src/html_splitter/application", ["import typer", "from typer", "import zipfile"]⟩,
    ⟨"src/html_splitter/adapters",
      ["import typer", "from typer", "html_splitter.application.use_cases"]⟩]

structure Violation where
  source : Path
  word : Text

def Violation.message (v : Violation) : Text :=
  "Architecture violation in " ++ v.source.toText ++ ": found '" ++ v.word ++ "'"

def passed : Text := "Architecture checks passed.\n"

def sources (s : Store) (dir : Path) : List Path :=
  match s.entry dir with
  | .ok (place, .dir) =>
    s.entries.filterMap fun (p, _) =>
      let name := p.getLast?.getD []
      if p == place ++ [name] && name.endsWith ".py" then some (dir.child name) else none
  | _ => []

def sourceText (s : Store) (source : Path) : Except Failure Text :=
  match s.entry source with
  | .ok (_, .file content _) =>
    match Utf8.fault? content.data with
    | some fault => .error (.illFormed fault)
    | none => .ok (Utf8.decode content.data)
  | .ok (_, .dir) => .error (.refused ⟨.isDirectory, some source.toText⟩)
  | .ok (_, _) => .ok []
  | .error .nul => .error .nul
  | .error (.refused r) => .error (.refused r)

def checkSource (s : Store) (rule : LayerRule) (source : Path) :
    Except Failure (Option Violation) := do
  let t ← sourceText s source
  .ok ((rule.banned.find? (t.includes ·)).map fun word => ⟨source, word⟩)

def firstSome {α β : Type} (f : α → Except Failure (Option β)) :
    List α → Except Failure (Option β)
  | [] => .ok none
  | a :: rest => do
    match ← f a with
    | some b => .ok (some b)
    | none => firstSome f rest

def checkRule (s : Store) (root : Path) (rule : LayerRule) : Except Failure (Option Violation) :=
  firstSome (checkSource s rule) (sources s (root.join rule.dir))

def check (s : Store) (root : Path) : Except Failure (Option Violation) := do
  let root ← s.locate root
  firstSome (checkRule s root) rules

end Layering

end Unbundle
