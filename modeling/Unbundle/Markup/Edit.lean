import Unbundle.Text

namespace Unbundle

structure Edit where
  start : Nat
  stop : Nat
  replacement : Text

namespace Edit

def le (a b : Edit) : Bool := a.start < b.start || (a.start == b.start && a.stop ≤ b.stop)

def insertion (pos : Nat) (t : Text) : Edit := ⟨pos, pos, t⟩

def splice (page : Text) (cursor : Nat) : List Edit → Text
  | [] => page.drop cursor
  | e :: es => page.slice cursor e.start ++ e.replacement ++ splice page (max cursor e.stop) es

/-- Spans may overlap; of edits with one span the earlier is written first. -/
def applyAll (page : Text) (edits : List Edit) : Text := splice page 0 (edits.mergeSort le)

end Edit

namespace Markup

def lead (page : Text) (pos : Nat) : Text :=
  ((page.take pos).reverse.takeWhile (· != .scalar '\n')).reverse

def trail (page : Text) (pos : Nat) : Text :=
  let rest := page.drop pos
  match rest.findIdx? (· == .scalar '\n') with
  | some n => rest.take (n + 1)
  | none => rest

/-- A span widened to whole lines where nothing but blanks stands beside it. -/
def lineSpan (page : Text) (start stop : Nat) : Nat × Nat :=
  let before := lead page start
  let behind := trail page stop
  if before.isBlank && behind.isBlank then (start - before.length, stop + behind.length)
  else (start, stop)

/-- A tag as it is put in front of the position, in line with the tag that stands there. -/
def indented (page : Text) (pos : Nat) (tag : Text) : Text :=
  if page.length ≤ pos then if page.endsWith "\n" then tag ++ "\n" else tag
  else
    let indent := lead page pos
    if indent.length = pos || !indent.isBlank then tag else "    " ++ tag ++ "\n" ++ indent

end Markup

end Unbundle
