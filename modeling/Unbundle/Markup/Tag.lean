import Unbundle.Text
import Unbundle.Text.Lower

namespace Unbundle

inductive Kind
  | style
  | script
deriving DecidableEq

def Kind.name : Kind → Text
  | .style => "style"
  | .script => "script"

namespace Markup

def endsName (s : Sym) : Bool := s.isOneOf [' ', '\t', '\n', '\r', '\x0c', '/', '>']

def namesTag (name low : Text) : Bool :=
  name.isPrefixOf low && (low.drop name.length).head?.all endsName

def isQuote (s : Sym) : Bool := s.isOneOf ['\x22', '\x27']

/-- The position of the first `>` outside quotes, `quote` being the one that is open. -/
def tagEnd? (quote : Option Sym) : Text → Option Nat
  | [] => none
  | s :: rest =>
    match quote with
    | some q => (tagEnd? (if s = q then none else some q) rest).map (· + 1)
    | none =>
      if s = .scalar '>' then some 0
      else (tagEnd? (if isQuote s then some s else none) rest).map (· + 1)

def closes (name low : Text) : Bool :=
  List.isPrefixOf ("</" : Text) low && namesTag name (low.drop 2)

def closing? (name : Text) : Text → Option Nat
  | [] => none
  | s :: rest => if closes name (s :: rest) then some 0 else (closing? name rest).map (· + 1)

end Markup

abbrev Attributes := List (Text × Text)

namespace Attributes

def get? (as : Attributes) (name : Text) : Option Text := as.lookup name

def has (as : Attributes) (name : Text) : Bool := (as.get? name).isSome

/-- A later attribute of a name already present is dropped. -/
def add (as : Attributes) (name value : Text) : Attributes :=
  if as.has name then as else as ++ [(name, value)]

def ofList (as : List (Text × Text)) : Attributes :=
  as.foldl (fun found (name, value) => found.add name value) []

end Attributes

namespace Markup

def isNameSym (s : Sym) : Bool := !s.isBlank && !s.isOneOf ['\x22', '\x27', '>', '/', '=']

def isBareSym (s : Sym) : Bool :=
  !s.isBlank && !s.isOneOf ['\x22', '\x27', '=', '<', '>', '\x60']

def quotedValue? (quote : Sym) : Text → Option (Text × Text)
  | [] => none
  | s :: rest =>
    if s = quote then some ([], rest)
    else (quotedValue? quote rest).map fun (value, rest) => (s :: value, rest)

def value? (t : Text) : Option (Text × Text) :=
  match t.dropWhile Sym.isBlank with
  | .scalar '=' :: t =>
    match t.dropWhile Sym.isBlank with
    | [] => none
    | s :: rest =>
      if s = .scalar '\x22' ∨ s = .scalar '\x27' then quotedValue? s rest
      else if isBareSym s then
        some (s :: rest.takeWhile isBareSym, rest.dropWhile isBareSym)
      else none
  | _ => none

theorem quotedValue?_length {quote : Sym} {t value rest : Text}
    (h : quotedValue? quote t = some (value, rest)) : rest.length ≤ t.length := by
  induction t generalizing value rest with
  | nil => simp [quotedValue?] at h
  | cons s t ih =>
    simp only [quotedValue?] at h
    split at h
    · simp_all
    · obtain ⟨⟨v, r⟩, found, same⟩ := Option.map_eq_some_iff.mp h
      have bound := ih found
      simp only [Prod.mk.injEq] at same
      rw [← same.2, List.length_cons]
      omega

theorem dropWhile_length (p : Sym → Bool) (t : Text) : (t.dropWhile p).length ≤ t.length :=
  (List.dropWhile_sublist p).length_le

theorem value?_length {t value rest : Text} (h : value? t = some (value, rest)) :
    rest.length ≤ t.length := by
  have outer := dropWhile_length Sym.isBlank t
  unfold value? at h
  split at h
  · rename_i inner eq
    have within := dropWhile_length Sym.isBlank inner
    rw [eq, List.length_cons] at outer
    split at h
    · cases h
    · rename_i s tail tailEq
      rw [tailEq, List.length_cons] at within
      split at h
      · have := quotedValue?_length h
        omega
      · split at h
        · have := dropWhile_length isBareSym tail
          simp only [Option.some.injEq, Prod.mk.injEq] at h
          rw [← h.2]
          omega
        · cases h
  · cases h

def attributesIn (t : Text) : List (Text × Text) :=
  match _start : t.dropWhile (!isNameSym ·) with
  | [] => []
  | s :: rest =>
    let name : Text := s :: rest.takeWhile isNameSym
    match _found : value? (rest.dropWhile isNameSym) with
    | some (value, beyond) => (name.lower, value) :: attributesIn beyond
    | none => (name.lower, []) :: attributesIn (rest.dropWhile isNameSym)
termination_by t.length
decreasing_by
  all_goals
    have outer := dropWhile_length (!isNameSym ·) t
    have inner := dropWhile_length isNameSym rest
    rw [_start, List.length_cons] at outer
  · have := value?_length _found
    omega
  · omega

/-- A tag less its angle brackets, closing slashes and name. -/
def attributeText (tag : Text) : Text :=
  let body := Text.trimRight (·.isOneOf ['/']) (Text.trim (·.isOneOf ['<', '>']) tag)
  (body.dropWhile Sym.isBlank).dropWhile (!Sym.isBlank ·)

end Markup

def Attributes.ofTag (tag : Text) : Attributes :=
  .ofList (Markup.attributesIn (Markup.attributeText tag))

end Unbundle
