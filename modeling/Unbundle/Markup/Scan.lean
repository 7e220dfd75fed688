import Unbundle.Markup.Mark

namespace Unbundle.Markup

/-- A position of the page, with what follows it in the page and in the page's lower case. Both
    run side by side by position, also where the two texts have different lengths. -/
structure Cursor where
  pos : Nat
  rest : Text
  low : Text

namespace Cursor

def ofText (page : Text) : Cursor := ⟨0, page, page.lower⟩

def advance (c : Cursor) (n : Nat) : Cursor := ⟨c.pos + n, c.rest.drop n, c.low.drop n⟩

def toTag? (c : Cursor) : Option Cursor :=
  (c.rest.findIdx? (· == .scalar '<')).map c.advance

def startsWith (c : Cursor) (t : Text) : Bool := t.isPrefixOf c.low

def opens (c : Cursor) (name : Text) : Bool := namesTag name (c.low.drop 1)

def closes (c : Cursor) (name : Text) : Bool := Markup.closes name c.low

def blockKind? (c : Cursor) : Option Kind :=
  if c.opens Kind.style.name then some .style
  else if c.opens Kind.script.name then some .script
  else none

/-- A block that begins here, or the opening tag alone, or not even that; and how many symbols
    behind the `<` belong to it. -/
def readBlock (c : Cursor) (kind : Kind) : Mark × Nat :=
  match tagEnd? none (c.rest.drop 1) with
  | none => (.unclosed kind, 0)
  | some n =>
    let content := n + 2
    match closing? kind.name (c.low.drop content) with
    | none => (.unclosed kind, n + 1)
    | some k =>
      match (c.rest.drop (content + k)).findIdx? (· == .scalar '>') with
      | none => (.unclosed kind, n + 1)
      | some m =>
        (.block {
          kind := kind
          start := c.pos
          contentStart := c.pos + content
          contentEnd := c.pos + content + k
          stop := c.pos + content + k + m + 1
          attributes := .ofTag (c.rest.take content) }, content + k + m)

def landmark? (c : Cursor) : Option Mark :=
  if c.opens "html" then
    (tagEnd? none (c.rest.drop 1)).map fun n => .htmlOpen (c.pos + n + 2)
  else if c.opens "body" then some (.bodyOpen c.pos)
  else if c.closes "head" then some (.headClose c.pos)
  else if c.closes "body" then some (.bodyClose c.pos)
  else if c.closes "html" then some (.htmlClose c.pos)
  else none

/-- What begins at the `<` under the cursor, and how many symbols behind the `<` are passed over
    with it. A comment or declaration without an end ends the scan. -/
def readTag (c : Cursor) : Option (Option Mark × Nat) :=
  if c.startsWith "<!--" then
    (Text.find? "-->" (c.rest.drop 4)).map fun n => (none, n + 6)
  else if c.startsWith "<!" || c.startsWith "<?" then
    (c.rest.findIdx? (· == .scalar '>')).map fun n =>
      (if namesTag "doctype" (c.low.drop 2) then some (.doctype (c.pos + n + 1)) else none, n)
  else
    match c.blockKind? with
    | some kind =>
      let (mark, n) := c.readBlock kind
      some (some mark, n)
    | none => some (c.landmark?, 0)

theorem toTag?_length {c tag : Cursor} (h : c.toTag? = some tag) :
    tag.rest.length ≤ c.rest.length ∧ tag.rest ≠ [] := by
  obtain ⟨n, found, rfl⟩ := Option.map_eq_some_iff.mp h
  obtain ⟨bound, _⟩ := List.findIdx?_eq_some_iff_getElem.mp found
  constructor
  · simp [advance]
  · simpa [advance] using bound

def marks (c : Cursor) : Marks :=
  match _next : c.toTag? with
  | none => []
  | some tag =>
    match tag.readTag with
    | none => []
    | some (mark, n) => mark.toList ++ marks (tag.advance (n + 1))
termination_by c.rest.length
decreasing_by
  have bound := toTag?_length _next
  have positive := List.length_pos_iff.mpr bound.2
  simp only [advance, List.length_drop]
  omega

end Cursor

def scan (page : Text) : Marks := (Cursor.ofText page).marks

end Unbundle.Markup
