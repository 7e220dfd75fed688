import Unbundle.Text
import Unbundle.Text.Quoted

namespace Unbundle.Utf8

def isTail (b : UInt8) : Bool := 0x80 ≤ b && b ≤ 0xBF

/-- Rules out three-byte forms of shorter values and of surrogates. -/
def isSecondOfThree (first : Nat) (b : UInt8) : Bool :=
  isTail b && (first != 0xE0 || 0xA0 ≤ b) && (first != 0xED || b ≤ 0x9F)

/-- Rules out four-byte forms of shorter values and of values above U+10FFFF. -/
def isSecondOfFour (first : Nat) (b : UInt8) : Bool :=
  isTail b && (first != 0xF0 || 0x90 ≤ b) && (first != 0xF4 || b ≤ 0x8F)

def low6 (b : UInt8) : Nat := b.toNat - 0x80

def scalar? (first : Nat) (rest : List UInt8) : Option (Nat × Nat) :=
  if first < 0x80 then some (first, 0)
  else if first < 0xC2 then none
  else if first < 0xE0 then
    match rest with
    | b :: _ => if isTail b then some ((first - 0xC0) * 64 + low6 b, 1) else none
    | _ => none
  else if first < 0xF0 then
    match rest with
    | b :: c :: _ =>
      if isSecondOfThree first b && isTail c then
        some ((first - 0xE0) * 4096 + low6 b * 64 + low6 c, 2)
      else none
    | _ => none
  else if first < 0xF5 then
    match rest with
    | b :: c :: d :: _ =>
      if isSecondOfFour first b && isTail c && isTail d then
        some ((first - 0xF0) * 262144 + low6 b * 4096 + low6 c * 64 + low6 d, 3)
      else none
    | _ => none
  else none

def decode : List UInt8 → Text
  | [] => []
  | b :: rest =>
    match scalar? b.toNat rest with
    | some (n, tails) => .scalar (Char.ofNat n) :: decode (rest.drop tails)
    | none => .raw (Fin.ofNat 128 (b.toNat - 0x80)) :: decode rest
termination_by bytes => bytes.length
decreasing_by all_goals simp only [List.length_cons, List.length_drop]; omega

def scalarBytes (n : Nat) : List UInt8 :=
  if n < 0x80 then [.ofNat n]
  else if n < 0x800 then [.ofNat (0xC0 + n / 64), .ofNat (0x80 + n % 64)]
  else if n < 0x10000 then
    [.ofNat (0xE0 + n / 4096), .ofNat (0x80 + n / 64 % 64), .ofNat (0x80 + n % 64)]
  else
    [.ofNat (0xF0 + n / 262144), .ofNat (0x80 + n / 4096 % 64), .ofNat (0x80 + n / 64 % 64),
      .ofNat (0x80 + n % 64)]

def symBytes : Sym → List UInt8
  | .scalar c => scalarBytes c.toNat
  | .raw low => [.ofNat (0x80 + low.val)]

def encode (t : Text) : List UInt8 := t.flatMap symBytes

inductive Defect
  | invalidStart
  | invalidContinuation
  | unexpectedEnd

def Defect.text : Defect → Text
  | .invalidStart => "invalid start byte"
  | .invalidContinuation => "invalid continuation byte"
  | .unexpectedEnd => "unexpected end of data"

structure Fault where
  position : Nat
  byte : UInt8
  size : Nat
  defect : Defect

def Fault.message (f : Fault) : Text :=
  (if f.size = 1 then
      "'utf-8' codec can't decode byte 0x" ++ Text.hexPadded 2 f.byte.toNat ++ " in position " ++
        Text.ofNat f.position
    else
      "'utf-8' codec can't decode bytes in position " ++ Text.ofNat f.position ++ "-" ++
        Text.ofNat (f.position + f.size - 1)) ++
    ": " ++ f.defect.text

def partialSize (tests : List (UInt8 → Bool)) (rest : List UInt8) : Nat × Defect :=
  match tests, rest with
  | [], _ => (1, .invalidContinuation)
  | _ :: _, [] => (1, .unexpectedEnd)
  | test :: tests, b :: rest =>
    if test b then
      let (size, defect) := partialSize tests rest
      (size + 1, defect)
    else (1, .invalidContinuation)

def defectOf (first : Nat) (rest : List UInt8) : Nat × Defect :=
  if first < 0xC2 || 0xF5 ≤ first then (1, .invalidStart)
  else if first < 0xE0 then partialSize [isTail] rest
  else if first < 0xF0 then partialSize [isSecondOfThree first, isTail] rest
  else partialSize [isSecondOfFour first, isTail, isTail] rest

def faultFrom? (position : Nat) : List UInt8 → Option Fault
  | [] => none
  | b :: rest =>
    match scalar? b.toNat rest with
    | some (_, tails) => faultFrom? (position + tails + 1) (rest.drop tails)
    | none =>
      let (size, defect) := defectOf b.toNat rest
      some ⟨position, b, size, defect⟩
termination_by bytes => bytes.length
decreasing_by simp only [List.length_cons, List.length_drop]; omega

def fault? (bytes : List UInt8) : Option Fault := faultFrom? 0 bytes

/-- A run of unread bytes, which strict writing refuses: its position, its first byte and how many
    there are. -/
structure Stray where
  position : Nat
  low : Fin 128
  size : Nat

def Stray.message (f : Stray) : Text :=
  (if f.size = 1 then
      "'utf-8' codec can't encode character '" ++ Text.escaped (.scalar '\'') (.raw f.low) ++
        "' in position " ++ Text.ofNat f.position
    else
      "'utf-8' codec can't encode characters in position " ++ Text.ofNat f.position ++ "-" ++
        Text.ofNat (f.position + f.size - 1)) ++
    ": surrogates not allowed"

def strayFrom? (position : Nat) : Text → Option Stray
  | [] => none
  | .scalar _ :: rest => strayFrom? (position + 1) rest
  | .raw low :: rest => some ⟨position, low, (rest.takeWhile Sym.isRaw).length + 1⟩

def stray? (t : Text) : Option Stray := strayFrom? 0 t

end Unbundle.Utf8
