import Unbundle.Proofs.Skeleton.Literal
import Unbundle.Skeleton

namespace Unbundle

namespace Template

def isBrace (s : Sym) : Bool := s.isOneOf ['\x7b', '\x7d']

def place (name : Text) : Text := "\x7b" ++ name ++ "\x7d"

def doubled (t : Text) : Text := t.flatMap fun s => if isBrace s then [s, s] else [s]

/-- Puts values into the places of a template. What is put in is not looked through again. A brace
    that neither stands twice nor belongs to a place, and a place without a value, are errors. -/
def fill? (values : List (Text × Text)) (t : Text) : Option Text :=
  match t with
  | [] => some []
  | s :: rest =>
    if isBrace s ∧ rest.head? = some s then (fill? values rest.tail).map (s :: ·)
    else if s = .scalar '\x7b' then
      match _found : rest.dropWhile (· != .scalar '\x7d') with
      | [] => none
      | _ :: beyond =>
        (values.lookup (rest.takeWhile (· != .scalar '\x7d'))).bind fun value =>
          (fill? values beyond).map (value ++ ·)
    else if s = .scalar '\x7d' then none
    else (fill? values rest).map (s :: ·)
termination_by t.length
decreasing_by
  · simp only [List.length_tail, List.length_cons]
    omega
  · have bound := (List.dropWhile_sublist (p := (· != Sym.scalar '\x7d')) (l := rest)).length_le
    rw [_found, List.length_cons] at bound
    simp only [List.length_cons]
    omega
  · simp

variable {values : List (Text × Text)}

theorem fill?_brace {s : Sym} (brace : isBrace s) (rest : Text) :
    fill? values (s :: s :: rest) = (fill? values rest).map (s :: ·) := by
  rw [fill?, if_pos ⟨brace, rfl⟩, List.tail_cons]

theorem fill?_other {s : Sym} (other : isBrace s = false) (rest : Text) :
    fill? values (s :: rest) = (fill? values rest).map (s :: ·) := by
  have apart (c : Char) (brace : isBrace (.scalar c)) : s ≠ .scalar c := by
    rintro rfl
    rw [brace] at other
    cases other
  rw [fill?, if_neg (by simp [other]), if_neg (apart '\x7b' rfl), if_neg (apart '\x7d' rfl)]

theorem fill?_doubled (t rest : Text) :
    fill? values (doubled t ++ rest) = (fill? values rest).map (t ++ ·) := by
  induction t with
  | nil => simp [doubled]
  | cons s t ih =>
    rw [doubled, List.flatMap_cons, ← doubled, List.append_assoc]
    cases brace : isBrace s with
    | true =>
      rw [if_pos rfl, List.cons_append, List.singleton_append, fill?_brace brace, ih,
        Option.map_map]
      rfl
    | false =>
      rw [if_neg Bool.false_ne_true, List.singleton_append, fill?_other brace, ih, Option.map_map]
      rfl

theorem fill?_place {name value : Text} (plain : ∀ s ∈ name, isBrace s = false)
    (given : values.lookup name = some value) (rest : Text) :
    fill? values (place name ++ rest) = (fill? values rest).map (value ++ ·) := by
  have inside : ∀ s ∈ name, (s != .scalar '\x7d') = true := by
    intro s member
    rw [bne_iff_ne]
    rintro rfl
    cases plain _ member
  have opened : place name ++ rest = .scalar '\x7b' :: (name ++ .scalar '\x7d' :: rest) := by
    simp [place]
  have single : ¬ (name ++ .scalar '\x7d' :: rest).head? = some (.scalar '\x7b') := by
    cases name with
    | nil => simp
    | cons s name =>
      intro same
      cases same
      cases plain _ List.mem_cons_self
  have beyond : (name ++ .scalar '\x7d' :: rest).dropWhile (· != .scalar '\x7d') =
      .scalar '\x7d' :: rest := by
    rw [List.dropWhile_append_of_pos inside, List.dropWhile_cons_of_neg (by simp)]
  have between : (name ++ .scalar '\x7d' :: rest).takeWhile (· != .scalar '\x7d') = name := by
    rw [List.takeWhile_append_of_pos inside, List.takeWhile_cons_of_neg (by simp), List.append_nil]
  rw [opened, fill?, if_neg fun twice => single twice.2, if_pos rfl]
  split
  · rename_i ends
    rw [beyond] at ends
    cases ends
  · rename_i ends
    rw [beyond] at ends
    cases ends
    rw [between, given, Option.bind_some]

end Template

namespace Skeleton

def template : Text :=
  lines [
    "const \x7b\x7b app, BrowserWindow \x7d\x7d = require('electron');",
    "const path = require('path');",
    "",
    "function createWindow() \x7b\x7b",
    "    const win = new BrowserWindow(\x7b\x7b",
    "        width: 1200,",
    "        height: 800,",
    "        title: \x7btitle\x7d,",
    "        webPreferences: \x7b\x7b",
    "            nodeIntegration: false,",
    "            contextIsolation: true",
    "        \x7d\x7d",
    "    \x7d\x7d);",
    "",
    "    win.loadFile(path.join(__dirname, '\x7bhtml\x7d'));",
    "\x7d\x7d",
    "",
    "app.whenReady().then(() => \x7b\x7b",
    "    createWindow();",
    "",
    "    app.on('activate', () => \x7b\x7b",
    "        if (BrowserWindow.getAllWindows().length === 0) \x7b\x7b",
    "            createWindow();",
    "        \x7d\x7d",
    "    \x7d\x7d);",
    "\x7d\x7d);",
    "",
    "app.on('window-all-closed', () => \x7b\x7b",
    "    if (process.platform !== 'darwin') \x7b\x7b",
    "        app.quit();",
    "    \x7d\x7d",
    "\x7d\x7d);"]

theorem lines_cons (l : List Char) (ls : List String) :
    lines (String.ofList l :: ls) = l.map .scalar ++ .scalar '\n' :: lines ls := by
  rw [lines, List.flatMap_cons, String.toList_append, String.toList_ofList, List.map_append,
    List.append_assoc]
  rfl

theorem template_eq : template =
    Template.doubled beforeTitle ++ Template.place "title" ++ Template.doubled beforePage ++
      Template.place "html" ++ Template.doubled afterPage := by
  unfold template beforeTitle beforePage afterPage
  -- Lists of characters instead of strings, which are slow to evaluate in a proof.
  repeat rw [lines_cons]
  repeat rw [String.toList_ofList]
  decide +kernel

theorem fill?_template (title : Text) :
    Template.fill? [("title", title), ("html", pageFile)] template =
      some (beforeTitle ++ title ++ afterTitle) := by
  have ends : Template.fill? [("title", title), ("html", pageFile)]
      (Template.doubled afterPage) = some afterPage := by
    rw [← List.append_nil (Template.doubled afterPage), Template.fill?_doubled, Template.fill?]
    simp
  rw [template_eq, List.append_assoc, List.append_assoc, List.append_assoc,
    Template.fill?_doubled, Template.fill?_place (by decide) rfl, Template.fill?_doubled,
    Template.fill?_place (by decide) rfl, ends, afterTitle]
  simp

/-- The start script is the filled template. Around the name, which stands there as one literal,
    it is the same for all names, so it tells the name; no name reaches into the text behind it. -/
theorem entryScript_encloses (name : Text) :
    Template.fill? [("title", Literal.ofText name), ("html", pageFile)] template =
      some (entryScript name) ∧
    entryScript name = beforeTitle ++ Literal.ofText name ++ afterTitle ∧
    template = Template.doubled beforeTitle ++ Template.place "title" ++
      Template.doubled beforePage ++ Template.place "html" ++ Template.doubled afterPage ∧
    afterTitle = beforePage ++ pageFile ++ afterPage ∧
    Literal.Formed (Literal.ofText name) ∧ (∀ s ∈ Literal.ofText name, 0x20 ≤ s.code) ∧
    (∀ rest, Literal.read? (Literal.ofText name ++ rest) = some (name, rest)) ∧
    ∀ other, entryScript other = entryScript name → other = name := by
  refine ⟨fill?_template _, rfl, template_eq, rfl, Literal.ofText_formed name,
    Literal.ofText_visible name, Literal.read?_ofText name, fun other same => ?_⟩
  have literal : Literal.ofText other = Literal.ofText name :=
    List.append_cancel_left (List.append_cancel_right same)
  exact Literal.ofText_injective literal

end Skeleton

end Unbundle
