import Unbundle.Text.Quoted

namespace Unbundle

namespace Literal

def escaped (s : Sym) : Text :=
  if s = .scalar '\x22' then "\\\""
  else if s = .scalar '\\' then "\\\\"
  else if s = .scalar '\n' then "\\n"
  else if s = .scalar '\r' then "\\r"
  else if s = .scalar '\t' then "\\t"
  else if s = .scalar '\x08' then "\\b"
  else if s = .scalar '\x0c' then "\\f"
  else if s.code < 0x20 then "\\u" ++ Text.hexPadded 4 s.code
  else [s]

def ofText (t : Text) : Text := "\"" ++ t.flatMap escaped ++ "\""

def object (depth : Nat) (fields : List (Text × Text)) : Text :=
  let indent (depth : Nat) : Text := List.replicate (2 * depth) (.scalar ' ')
  let line (field : Text × Text) : Text :=
    indent (depth + 1) ++ ofText field.1 ++ ": " ++ field.2
  "\x7b\n" ++ Text.joinWith ",\n" (fields.map line) ++ "\n" ++ indent depth ++ "\x7d"

end Literal

namespace Skeleton

def pageFile : Text := "index.html"

def entryFile : Text := "main.js"

def manifestFile : Text := "package.json"

def lines (ls : List String) : Text := ls.flatMap fun l => (l ++ "\n" : String)

def beforeTitle : Text :=
  lines [
    "const \x7b app, BrowserWindow \x7d = require('electron');",
    "const path = require('path');",
    "",
    "function createWindow() \x7b",
    "    const win = new BrowserWindow(\x7b",
    "        width: 1200,",
    "        height: 800,"] ++
    "        title: "

def beforePage : Text :=
  lines [
    ",",
    "        webPreferences: \x7b",
    "            nodeIntegration: false,",
    "            contextIsolation: true",
    "        \x7d",
    "    \x7d);",
    ""] ++
    "    win.loadFile(path.join(__dirname, '"

def afterPage : Text :=
  lines [
    "'));",
    "\x7d",
    "",
    "app.whenReady().then(() => \x7b",
    "    createWindow();",
    "",
    "    app.on('activate', () => \x7b",
    "        if (BrowserWindow.getAllWindows().length === 0) \x7b",
    "            createWindow();",
    "        \x7d",
    "    \x7d);",
    "\x7d);",
    "",
    "app.on('window-all-closed', () => \x7b",
    "    if (process.platform !== 'darwin') \x7b",
    "        app.quit();",
    "    \x7d",
    "\x7d);"]

def afterTitle : Text := beforePage ++ pageFile ++ afterPage

def entryScript (appName : Text) : Text := beforeTitle ++ Literal.ofText appName ++ afterTitle

def manifest (appName appVersion : Text) : Text :=
  Literal.object 0
    [("name", Literal.ofText appName),
      ("version", Literal.ofText appVersion),
      ("description", Literal.ofText (appName ++ " desktop application")),
      ("main", Literal.ofText entryFile),
      ("scripts", Literal.object 1 [("start", Literal.ofText "electron .")])] ++ "\n"

end Skeleton

end Unbundle
