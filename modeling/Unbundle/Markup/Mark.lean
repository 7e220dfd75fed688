import Unbundle.Markup.Tag

namespace Unbundle

structure Block where
  kind : Kind
  start : Nat
  contentStart : Nat
  contentEnd : Nat
  stop : Nat
  attributes : Attributes

namespace Block

def inner (b : Block) (page : Text) : Text := page.slice b.contentStart b.contentEnd

def classicTypes : List Text :=
  ["", "text/javascript", "application/javascript", "application/x-javascript",
    "text/x-javascript", "text/ecmascript", "application/ecmascript", "text/jscript",
    "text/livescript"]

def scriptType (as : Attributes) : Text :=
  let type : Text := ((as.get? "type").getD []).takeWhile (· != .scalar ';')
  type.trimBlank.lower

/-- Whether the content can be moved out: any style, and any inline script that is not a module
    and not data. -/
def isExtractable (b : Block) : Bool :=
  match b.kind with
  | .style => true
  | .script => !b.attributes.has "src" && classicTypes.contains (scriptType b.attributes)

end Block

/-- Positions are those of the `<`, or behind the `>` where a declaration or opening tag ends. -/
inductive Mark
  | doctype (stop : Nat)
  | htmlOpen (stop : Nat)
  | headClose (start : Nat)
  | bodyOpen (start : Nat)
  | bodyClose (start : Nat)
  | htmlClose (start : Nat)
  | block (b : Block)
  | unclosed (kind : Kind)

namespace Mark

def doctype? : Mark → Option Nat
  | .doctype n => some n
  | _ => none

def htmlOpen? : Mark → Option Nat
  | .htmlOpen n => some n
  | _ => none

def headClose? : Mark → Option Nat
  | .headClose n => some n
  | _ => none

def bodyOpen? : Mark → Option Nat
  | .bodyOpen n => some n
  | _ => none

def bodyClose? : Mark → Option Nat
  | .bodyClose n => some n
  | _ => none

def htmlClose? : Mark → Option Nat
  | .htmlClose n => some n
  | _ => none

def block? : Mark → Option Block
  | .block b => some b
  | _ => none

def unclosed? : Mark → Option Kind
  | .unclosed k => some k
  | _ => none

end Mark

abbrev Marks := List Mark

namespace Marks

def first? {α : Type} (ms : Marks) (view : Mark → Option α) : Option α := ms.findSome? view

def last? {α : Type} (ms : Marks) (view : Mark → Option α) : Option α := ms.reverse.findSome? view

def doctypeEnd? (ms : Marks) : Option Nat := ms.first? Mark.doctype?

def htmlOpenEnd? (ms : Marks) : Option Nat := ms.first? Mark.htmlOpen?

def headClose? (ms : Marks) : Option Nat := ms.first? Mark.headClose?

def bodyOpen? (ms : Marks) : Option Nat := ms.first? Mark.bodyOpen?

def bodyClose? (ms : Marks) : Option Nat := ms.last? Mark.bodyClose?

def htmlClose? (ms : Marks) : Option Nat := ms.last? Mark.htmlClose?

def unclosed? (ms : Marks) : Option Kind := ms.last? Mark.unclosed?

def blocks (ms : Marks) : List Block := ms.filterMap Mark.block?

def extractable (ms : Marks) (kind : Kind) : List Block :=
  ms.blocks.filter fun b => b.kind = kind && b.isExtractable

end Marks

end Unbundle
