import Unbundle.Markup.Edit
import Unbundle.Markup.Scan

namespace Unbundle

structure Assets where
  markup : Text
  styleText : Option Text := none
  scriptText : Option Text := none
  styleBlocks : Nat := 0
  scriptBlocks : Nat := 0

inductive Notice
  | unclosed (kind : Kind)
  | leftInline (kind : Kind) (found left : Nat)

def Notice.message : Notice → Text
  | .unclosed kind => "Unterminated <" ++ kind.name ++ "> element left in place."
  | .leftInline kind found left =>
    "Found " ++ Text.ofNat found ++ " inline <" ++ kind.name ++
      "> blocks; only the first was extracted, " ++ Text.ofNat left ++ " left inline."

def Kind.file : Kind → Text
  | .style => "style.css"
  | .script => "renderer.js"

def Kind.reference : Kind → Text
  | .style => "<link rel=\"stylesheet\" href=\"" ++ Kind.style.file ++ "\">"
  | .script => "<script src=\"" ++ Kind.script.file ++ "\"></script>"

def Kind.banner (number : Nat) : Kind → Text
  | .style => "/* Style block " ++ Text.ofNat number ++ " */"
  | .script => "// Script block " ++ Text.ofNat number

/-- A page with its marks, and whether every extractable block is moved or the first of a kind. -/
structure Plan where
  page : Text
  all : Bool
  marks : Marks

namespace Plan

def make (page : Text) (all : Bool) : Plan := ⟨page, all, Markup.scan page⟩

def found (p : Plan) (kind : Kind) : List Block := p.marks.extractable kind

def chosen (p : Plan) (kind : Kind) : List Block :=
  if p.all then p.found kind else (p.found kind).take 1

def position (p : Plan) : Kind → Nat
  | .style =>
    ((p.marks.headClose?.or p.marks.bodyOpen?).or p.marks.htmlOpenEnd?).or p.marks.doctypeEnd?
      |>.getD 0
  | .script => (p.marks.bodyClose?.or p.marks.htmlClose?).getD p.page.length

def removals (p : Plan) (kind : Kind) : List Edit :=
  (p.chosen kind).map fun b =>
    let (start, stop) := Markup.lineSpan p.page b.start b.stop
    ⟨start, stop, []⟩

def references (p : Plan) (kind : Kind) : List Edit :=
  if (p.chosen kind).isEmpty then []
  else [.insertion (p.position kind) (Markup.indented p.page (p.position kind) kind.reference)]

def edits (p : Plan) : List Edit :=
  p.removals .style ++ p.removals .script ++ p.references .style ++ p.references .script

def numbered (kind : Kind) (number : Nat) (inner : Text) : Text :=
  kind.banner number ++ "\n" ++ inner.trim (· == .scalar '\n')

def joined (kind : Kind) (inners : List Text) : Text :=
  Text.joinWith "\n\n" ((inners.zipIdx 1).map fun (inner, number) => numbered kind number inner) ++
    "\n"

/-- The first block as it stands, or all of them under numbered banners. -/
def text? (p : Plan) (kind : Kind) : Option Text :=
  match (p.chosen kind).map (·.inner p.page) with
  | [] => none
  | first :: rest => some (if p.all then joined kind (first :: rest) else first)

def assets (p : Plan) : Assets where
  markup := Edit.applyAll p.page p.edits
  styleText := p.text? .style
  scriptText := p.text? .script
  styleBlocks := (p.found .style).length
  scriptBlocks := (p.found .script).length

def leftInline (p : Plan) (kind : Kind) : List Notice :=
  let found := (p.found kind).length
  let chosen := (p.chosen kind).length
  if chosen < found then [.leftInline kind found (found - chosen)] else []

def notices (p : Plan) : List Notice :=
  p.marks.unclosed?.toList.map .unclosed ++ p.leftInline .style ++ p.leftInline .script

end Plan

def Assets.ofText (page : Text) (all : Bool) : Assets := (Plan.make page all).assets

end Unbundle
