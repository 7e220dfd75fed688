namespace Unbundle

/-- A Unicode scalar, or the byte `0x80 + low` of a file where no scalar could be read. -/
inductive Sym
  | scalar (c : Char)
  | raw (low : Fin 128)
deriving DecidableEq

namespace Sym

instance : Coe Char Sym := ⟨.scalar⟩

/-- Unread bytes are ordered and displayed as the code points U+DC80 to U+DCFF. -/
def code : Sym → Nat
  | .scalar c => c.toNat
  | .raw low => 0xDC80 + low.val

instance : LT Sym := ⟨fun a b => a.code < b.code⟩

instance (a b : Sym) : Decidable (a < b) := inferInstanceAs (Decidable (a.code < b.code))

def isRaw : Sym → Bool
  | .scalar _ => false
  | .raw _ => true

def isOneOf (cs : List Char) : Sym → Bool
  | .scalar c => cs.contains c
  | .raw _ => false

end Sym

abbrev Text := List Sym

instance : Coe String Text := ⟨fun s => s.toList.map .scalar⟩

namespace Text

def ofNat (n : Nat) : Text := n.repr

def find? (needle : Text) : Text → Option Nat
  | [] => if needle.isEmpty then some 0 else none
  | s :: rest => if needle.isPrefixOf (s :: rest) then some 0 else (find? needle rest).map (· + 1)

def includes (t needle : Text) : Bool := (find? needle t).isSome

def endsWith (t ending : Text) : Bool := ending.isSuffixOf t

def trimRight (p : Sym → Bool) (t : Text) : Text := (t.reverse.dropWhile p).reverse

def trim (p : Sym → Bool) (t : Text) : Text := trimRight p (t.dropWhile p)

def splitOn (separator : Sym) : Text → List Text
  | [] => [[]]
  | s :: rest =>
    if s = separator then [] :: splitOn separator rest
    else match splitOn separator rest with
      | [] => [[s]]
      | piece :: pieces => (s :: piece) :: pieces

def joinWith (separator : Text) (pieces : List Text) : Text := separator.intercalate pieces

def slice (t : Text) (start stop : Nat) : Text := (t.drop start).take (stop - start)

end Text

def blankRuns : List (Nat × Nat) :=
  [(0x09, 0x0D), (0x1C, 0x20), (0x85, 0x85), (0xA0, 0xA0), (0x1680, 0x1680), (0x2000, 0x200A),
    (0x2028, 0x2029), (0x202F, 0x202F), (0x205F, 0x205F), (0x3000, 0x3000)]

def Sym.isBlank (s : Sym) : Bool :=
  blankRuns.any fun (first, last) => first ≤ s.code && s.code ≤ last

namespace Text

def isBlank (t : Text) : Bool := t.all Sym.isBlank

def trimBlank (t : Text) : Text := trim Sym.isBlank t

end Text

end Unbundle
