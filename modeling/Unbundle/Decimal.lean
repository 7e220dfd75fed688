import Unbundle.Text

namespace Unbundle.Decimal

structure Dec where
  digits : Nat
  exponent : Int

structure Ratio where
  num : Nat
  den : Nat

def Ratio.lt (a b : Ratio) : Bool := a.num * b.den < b.num * a.den

def Ratio.le (a b : Ratio) : Bool := a.num * b.den ≤ b.num * a.den

def scale (base : Nat) (exponent : Int) (n : Nat) : Ratio :=
  if exponent < 0 then ⟨n, base.pow exponent.natAbs⟩ else ⟨n * base.pow exponent.natAbs, 1⟩

/-- The numbers that round to `m · 2 ^ q`; the ends belong to them where `m` is even. -/
structure Interval where
  low : Ratio
  value : Ratio
  high : Ratio
  closed : Bool

def Interval.of (m : Nat) (q : Int) : Interval where
  low := if m = Nat.pow 2 52 then scale 2 (q - 2) (4 * m - 1) else scale 2 (q - 1) (2 * m - 1)
  value := scale 2 q m
  high := scale 2 (q - 1) (2 * m + 1)
  closed := m % 2 = 0

def Interval.contains (i : Interval) (r : Ratio) : Bool :=
  if i.closed then i.low.le r && r.le i.high else i.low.lt r && r.lt i.high

/-- The exponent of the first digit: the greatest `k ≥ start - fuel` with `10 ^ k ≤ r`. -/
def magnitude (r : Ratio) (start : Int) : Nat → Int
  | 0 => start
  | fuel + 1 => if (scale 10 start 1).le r then start else magnitude r (start - 1) fuel

def onGrid? (i : Interval) (exponent : Int) : Option Dec :=
  let shifted := scale 10 (-exponent) 1
  let num := i.value.num * shifted.num
  let den := i.value.den * shifted.den
  let below := num / den
  let above := below + 1
  let hasBelow := i.contains (scale 10 exponent below)
  let hasAbove := i.contains (scale 10 exponent above)
  let belowIsNearer := 2 * (num % den) < den || (2 * (num % den) = den && below % 2 = 0)
  if hasBelow && (belowIsNearer || !hasAbove) then some ⟨below, exponent⟩
  else if hasAbove then some ⟨above, exponent⟩
  else none

def shortestFrom (i : Interval) (exponent : Int) : Nat → Dec
  | 0 => ⟨i.value.num / i.value.den, 0⟩
  | fuel + 1 =>
    match onGrid? i exponent with
    | some d => d
    | none => shortestFrom i (exponent - 1) fuel

/-- The shortest decimal for `m · 2 ^ q`, found within 17 digits for 53-bit numbers. -/
def shortest (m : Nat) (q : Int) : Dec :=
  let i := Interval.of m q
  shortestFrom i (magnitude i.value 309 700) 18

def significant (d : Dec) : List Char × Int :=
  let digits := Nat.toDigits 10 d.digits
  let kept := (digits.reverse.dropWhile (· == '0')).reverse
  (kept, d.exponent + (digits.length - 1 : Nat))

def zeros (n : Nat) : List Char := List.replicate n '0'

def positional (digits : List Char) (exponent : Int) : List Char :=
  if exponent < 0 then ['0', '.'] ++ zeros (exponent.natAbs - 1) ++ digits
  else
    let whole := exponent.natAbs + 1
    let fraction := digits.drop whole
    digits.take whole ++ zeros (whole - digits.length) ++ ['.'] ++
      (if fraction.isEmpty then ['0'] else fraction)

def scientific (digits : List Char) (exponent : Int) : List Char :=
  let size := Nat.toDigits 10 exponent.natAbs
  digits.take 1 ++ (if digits.length ≤ 1 then [] else '.' :: digits.drop 1) ++ ['e'] ++
    [if exponent < 0 then '-' else '+'] ++ zeros (2 - size.length) ++ size

def written (m : Nat) (q : Int) : List Char :=
  if m = 0 then ['0', '.', '0']
  else
    let (digits, exponent) := significant (shortest m q)
    if -4 ≤ exponent ∧ exponent < 16 then positional digits exponent
    else scientific digits exponent

def magnitudeText (biased fraction : Nat) : List Char :=
  if biased = 2047 then (if fraction = 0 then ['i', 'n', 'f'] else ['n', 'a', 'n'])
  else if biased = 0 then written fraction (-1074)
  else written (Nat.pow 2 52 + fraction) (Int.ofNat biased - 1075)

def ofBits (bits : Nat) : Text :=
  let sign : List Char := if bits / Nat.pow 2 63 = 0 then [] else ['-']
  (sign ++ magnitudeText (bits / Nat.pow 2 52 % Nat.pow 2 11) (bits % Nat.pow 2 52)).map .scalar

end Unbundle.Decimal
