import Unbundle.Proofs.Skeleton.Literal

namespace Unbundle

/-- A JSON value. A number is kept as it is written, an object keeps the order of its fields. -/
inductive Json
  | null
  | bool (b : Bool)
  | number (written : Text)
  | string (t : Text)
  | array (items : List Json)
  | object (fields : List (Text × Json))

namespace Json

def isGap (s : Sym) : Bool := s.isOneOf [' ', '\t', '\n', '\r']

def skip (t : Text) : Text := t.dropWhile isGap

def isDigit (s : Sym) : Bool := s.isOneOf ['0', '1', '2', '3', '4', '5', '6', '7', '8', '9']

def isDigits (t : Text) : Bool := !t.isEmpty && t.all isDigit

def isFraction : Text → Bool
  | [] => true
  | s :: digits => s = .scalar '.' && isDigits digits

def isExponent : Text → Bool
  | [] => true
  | _ :: s :: digits => if s.isOneOf ['+', '-'] then isDigits digits else isDigits (s :: digits)
  | _ => false

def isNumber (t : Text) : Bool :=
  let unsigned := if t.head? = some (.scalar '-') then t.tail else t
  let (mantissa, exponent) := unsigned.span fun s => !s.isOneOf ['e', 'E']
  let (whole, fraction) := mantissa.span isDigit
  isDigits whole && (whole.head? != some (.scalar '0') || whole.length = 1) &&
    isFraction fraction && isExponent exponent

def number? (t : Text) : Option (Json × Text) :=
  let (digits, rest) := t.span fun s => isDigit s || s.isOneOf ['+', '-', '.', 'e', 'E']
  if isNumber digits then some (.number digits, rest) else none

def word? (t : Text) : Option (Json × Text) :=
  [(("null" : Text), Json.null), ("true", .bool true), ("false", .bool false)].findSome?
    fun (word, value) => if word.isPrefixOf t then some (value, t.drop word.length) else none

section Lists

variable {α : Type} (item? : Text → Option (α × Text)) (close : Char)

def more? : Nat → Text → Option (List α × Text)
  | 0, _ => none
  | bound + 1, t =>
    (item? t).bind fun (item, rest) =>
      match skip rest with
      | [] => none
      | s :: rest =>
        if s = .scalar close then some ([item], rest)
        else if s = .scalar ',' then
          (more? bound rest).map fun (items, rest) => (item :: items, rest)
        else none

def items? (bound : Nat) (t : Text) : Option (List α × Text) :=
  if (skip t).head? = some (.scalar close) then some ([], (skip t).tail)
  else more? item? close bound t

end Lists

def field? (value? : Text → Option (Json × Text)) (t : Text) : Option ((Text × Json) × Text) :=
  (Literal.read? (skip t)).bind fun (name, rest) =>
    if (skip rest).head? = some (.scalar ':') then
      (value? (skip rest).tail).map fun (value, rest) => ((name, value), rest)
    else none

/-- The value that stands here behind its gap, and what follows it. The bound is on how deep the
    value is and on how long its lists are. -/
def value? : Nat → Text → Option (Json × Text)
  | 0, _ => none
  | bound + 1, t =>
    match skip t with
    | [] => none
    | s :: rest =>
      if s = .scalar '\x22' then
        (Literal.inner? rest).map fun (t, rest) => (.string t, rest)
      else if s = .scalar '\x7b' then
        (items? (field? (value? bound)) '\x7d' bound rest).map fun (fields, rest) =>
          (.object fields, rest)
      else if s = .scalar '[' then
        (items? (value? bound) ']' bound rest).map fun (items, rest) => (.array items, rest)
      else (number? (s :: rest)).or (word? (s :: rest))

def ofText? (t : Text) : Option Json :=
  (value? t.length t).bind fun (value, rest) => if rest.all isGap then some value else none

theorem skip_append {gap : Text} (gaps : ∀ s ∈ gap, isGap s) (t : Text) :
    skip (gap ++ t) = skip t :=
  List.dropWhile_append_of_pos gaps

theorem skip_cons {s : Sym} (visible : isGap s = false) (t : Text) : skip (s :: t) = s :: t := by
  rw [skip, List.dropWhile_cons_of_neg (by simp [visible])]

theorem value?_gap {gap : Text} (gaps : ∀ s ∈ gap, isGap s) (bound : Nat) (t : Text) :
    value? bound (gap ++ t) = value? bound t := by
  cases bound with
  | zero => rfl
  | succ bound => rw [value?, value?, skip_append gaps]

/-- The text is read as this value, whatever follows it. -/
def Reads (w : Text) (value : Json) : Prop :=
  ∀ bound rest, w.length ≤ bound → value? bound (w ++ rest) = some (value, rest)

theorem reads_literal (t : Text) : Reads (Literal.ofText t) (.string t) := by
  intro bound rest bounded
  cases bound with
  | zero => cases bounded
  | succ bound =>
    rw [Literal.ofText_append, value?, skip_cons rfl]
    simp only [if_true, Literal.inner?_ofText, Option.map_some]

def FieldReads (written : Text × Text) (read : Text × Json) : Prop :=
  read.1 = written.1 ∧ Reads written.2 read.2

def line (gap : Text) (field : Text × Text) : Text :=
  gap ++ Literal.ofText field.1 ++ ": " ++ field.2

def lines (gap : Text) (fields : List (Text × Text)) : Text :=
  Text.joinWith ",\n" (fields.map (line gap))

theorem lines_single (gap : Text) (field : Text × Text) : lines gap [field] = line gap field := by
  simp [lines, Text.joinWith, List.intercalate]

theorem lines_cons (gap : Text) (field next : Text × Text) (fields : List (Text × Text)) :
    lines gap (field :: next :: fields) =
      line gap field ++ .scalar ',' :: ([.scalar '\n'] ++ lines gap (next :: fields)) := by
  simp [lines, Text.joinWith, List.intercalate]

theorem length_lt_line (gap : Text) (field : Text × Text) :
    field.2.length < (line gap field).length := by
  simp only [line, List.length_append]
  simp

theorem lines_bounds (gap : Text) (fields : List (Text × Text)) :
    fields.length ≤ (lines gap fields).length ∧
    ∀ field ∈ fields, field.2.length ≤ (lines gap fields).length := by
  induction fields with
  | nil => exact ⟨Nat.zero_le _, List.forall_mem_nil _⟩
  | cons field fields ih =>
    have first := length_lt_line gap field
    cases fields with
    | nil =>
      rw [lines_single, List.forall_mem_singleton]
      exact ⟨Nat.one_le_of_lt first, Nat.le_of_lt first⟩
    | cons next fields =>
      rw [lines_cons, List.forall_mem_cons]
      simp only [List.length_cons, List.length_append] at ih ⊢
      exact ⟨by omega, by omega, fun field member => Nat.le_trans (ih.2 field member) (by omega)⟩

section Objects

variable {gap : Text} {written : Text × Text} {read : Text × Json}
  {fields : List (Text × Text)} {values : List (Text × Json)}

theorem field?_line (gaps : ∀ s ∈ gap, isGap s) (reads : FieldReads written read) {bound : Nat}
    (bounded : written.2.length ≤ bound) (rest : Text) :
    field? (value? bound) (line gap written ++ rest) = some (read, rest) := by
  obtain ⟨name, value⟩ := read
  obtain ⟨rfl, reads⟩ := reads
  have visible : skip (Literal.ofText written.1 ++ (": " ++ (written.2 ++ rest))) =
      Literal.ofText written.1 ++ (": " ++ (written.2 ++ rest)) :=
    skip_cons (s := .scalar '\x22') rfl _
  have colon : skip (": " ++ (written.2 ++ rest)) =
      [.scalar ':', .scalar ' '] ++ (written.2 ++ rest) :=
    skip_cons (s := .scalar ':') rfl _
  rw [field?, line]
  simp only [List.append_assoc]
  rw [skip_append gaps, visible, Literal.read?_ofText, Option.bind_some]
  simp only [colon, List.cons_append, List.head?_cons, if_true, List.tail_cons]
  rw [← List.cons_append, value?_gap (by decide), reads bound rest bounded, Option.map_some]

theorem more?_gap (gaps : ∀ s ∈ gap, isGap s) {bound items : Nat} (t : Text) :
    more? (field? (value? bound)) '\x7d' items (gap ++ t) =
      more? (field? (value? bound)) '\x7d' items t := by
  cases items with
  | zero => rfl
  | succ items => rw [more?, more?, field?, field?, skip_append gaps]

theorem more?_last {fields : Text → Option ((Text × Json) × Text)} {t rest : Text}
    {value : Text × Json} {closing : Text} (closes : ∀ s ∈ closing, isGap s)
    (read : fields t = some (value, closing ++ .scalar '\x7d' :: rest)) (items : Nat) :
    more? fields '\x7d' (items + 1) t = some ([value], rest) := by
  have skipped : skip (closing ++ .scalar '\x7d' :: rest) = .scalar '\x7d' :: rest := by
    rw [skip_append closes, skip_cons rfl]
  rw [more?, read, Option.bind_some]
  simp only [skipped, if_true]

theorem more?_next {fields : Text → Option ((Text × Json) × Text)} {t rest : Text}
    {value : Text × Json} (read : fields t = some (value, .scalar ',' :: rest)) (items : Nat) :
    more? fields '\x7d' (items + 1) t =
      (more? fields '\x7d' items rest).map fun (values, rest) => (value :: values, rest) := by
  have skipped : skip (.scalar ',' :: rest) = .scalar ',' :: rest := skip_cons rfl rest
  rw [more?, read, Option.bind_some]
  simp only [skipped]
  rw [if_neg (by decide), if_pos trivial]

theorem more?_lines (gaps : ∀ s ∈ gap, isGap s) {closing : Text} (closes : ∀ s ∈ closing, isGap s)
    (rest : Text) {bound : Nat} (reads : fields.Forall₂ FieldReads values) (any : fields ≠ [])
    (bounded : ∀ field ∈ fields, field.2.length ≤ bound) {items : Nat}
    (enough : fields.length ≤ items) :
    more? (field? (value? bound)) '\x7d' items
        (lines gap fields ++ (closing ++ .scalar '\x7d' :: rest)) = some (values, rest) := by
  induction reads generalizing items with
  | nil => exact absurd rfl any
  | @cons field value fields values fieldReads reads ih =>
    cases items with
    | zero => cases enough
    | succ items =>
      obtain ⟨fits, bounded⟩ := List.forall_mem_cons.mp bounded
      cases reads with
      | nil => rw [lines_single, more?_last closes (field?_line gaps fieldReads fits _)]
      | @cons next _ fields _ nextReads reads =>
        rw [lines_cons, List.append_assoc, List.cons_append,
          more?_next (field?_line gaps fieldReads fits _), List.append_assoc,
          more?_gap (by decide), ih (by simp) bounded (Nat.le_of_succ_le_succ enough),
          Option.map_some]

theorem skip_lines (gaps : ∀ s ∈ gap, isGap s) (any : fields ≠ []) (rest : Text) :
    (skip (lines gap fields ++ rest)).head? = some (.scalar '\x22') := by
  have first (field : Text × Text) (rest : Text) :
      (skip (line gap field ++ rest)).head? = some (.scalar '\x22') := by
    simp only [line, List.append_assoc]
    rw [skip_append gaps]
    exact congrArg List.head? (skip_cons (s := .scalar '\x22') rfl _)
  cases fields with
  | nil => exact absurd rfl any
  | cons field fields =>
    cases fields with
    | nil =>
      rw [lines_single]
      exact first field rest
    | cons next fields =>
      rw [lines_cons, List.append_assoc]
      exact first field _

def indent (depth : Nat) : Text := List.replicate (2 * depth) (.scalar ' ')

theorem indent_gap (depth : Nat) : ∀ s ∈ indent depth, isGap s := by
  intro s member
  obtain rfl := List.eq_of_mem_replicate member
  rfl

theorem object_eq (depth : Nat) (fields : List (Text × Text)) :
    Literal.object depth fields =
      "\x7b\n" ++ lines (indent (depth + 1)) fields ++ "\n" ++ indent depth ++ "\x7d" :=
  rfl

theorem object_append (depth : Nat) (fields : List (Text × Text)) (rest : Text) :
    Literal.object depth fields ++ rest =
      .scalar '\x7b' :: ([.scalar '\n'] ++ (lines (indent (depth + 1)) fields ++
        (.scalar '\n' :: indent depth ++ .scalar '\x7d' :: rest))) := by
  simp [object_eq]

theorem reads_object (depth : Nat) (reads : fields.Forall₂ FieldReads values) :
    Reads (Literal.object depth fields) (.object values) := by
  intro bound rest bounded
  let closing : Text := .scalar '\n' :: indent depth
  have closes : ∀ s ∈ closing, isGap s := List.forall_mem_cons.mpr ⟨rfl, indent_gap depth⟩
  let inside := [.scalar '\n'] ++
    (lines (indent (depth + 1)) fields ++ (closing ++ .scalar '\x7d' :: rest))
  have opened : Literal.object depth fields ++ rest = .scalar '\x7b' :: inside :=
    object_append depth fields rest
  have long : (lines (indent (depth + 1)) fields).length <
        (Literal.object depth fields).length := by
    have lengths := congrArg List.length opened
    simp only [inside, List.length_append, List.length_cons] at lengths
    omega
  cases bound with
  | zero => omega
  | succ bound =>
    obtain ⟨count, lengths⟩ := lines_bounds (indent (depth + 1)) fields
    have read : items? (field? (value? bound)) '\x7d' bound inside = some (values, rest) := by
      by_cases any : fields = []
      · subst any
        cases reads
        have skipped : skip inside = .scalar '\x7d' :: rest := by
          rw [skip_append (by decide), lines, List.map_nil]
          exact (skip_append closes _).trans (skip_cons rfl rest)
        rw [items?, skipped]
        rfl
      · have other : (skip inside).head? ≠ some (.scalar '\x7d') := by
          rw [skip_append (by decide), skip_lines (indent_gap _) any]
          decide
        rw [items?, if_neg other, more?_gap (by decide)]
        exact more?_lines (indent_gap _) closes rest reads any
          (fun field member => Nat.le_trans (lengths field member) (by omega)) (by omega)
    rw [opened, value?, skip_cons rfl]
    simp only [Sym.scalar.injEq, Char.reduceEq, if_false, if_true, read, Option.map_some]

end Objects

theorem ofText?_reads {w : Text} {value : Json} (reads : Reads w value) {gap : Text}
    (gaps : ∀ s ∈ gap, isGap s) : ofText? (w ++ gap) = some value := by
  rw [ofText?, reads _ _ (by simp), Option.bind_some]
  exact if_pos (List.all_eq_true.mpr gaps)

end Json

end Unbundle
