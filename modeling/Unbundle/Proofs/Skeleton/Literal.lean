import Mathlib.Data.List.Basic
import Unbundle.Skeleton

namespace Unbundle.Literal

def symOf? (code : Nat) : Option Sym :=
  if code.isValidChar then some (.scalar (Char.ofNat code))
  else if 0xDC80 ≤ code ∧ code < 0xDD00 then some (.raw (Fin.ofNat 128 (code - 0xDC80)))
  else none

def hexDigit? : Sym → Option Nat
  | .scalar c =>
    if '0' ≤ c ∧ c ≤ '9' then some (c.toNat - 0x30)
    else if 'a' ≤ c ∧ c ≤ 'f' then some (c.toNat - 0x57)
    else if 'A' ≤ c ∧ c ≤ 'F' then some (c.toNat - 0x37)
    else none
  | .raw _ => none

def hexNumber? (digits : Text) : Option Nat :=
  digits.foldlM (fun number d => (hexDigit? d).map (16 * number + ·)) 0

def code? : Text → Option (Nat × Text)
  | a :: b :: c :: d :: rest => (hexNumber? [a, b, c, d]).map (·, rest)
  | _ => none

def lowHalf? : Text → Option (Nat × Text)
  | .scalar '\\' :: .scalar 'u' :: rest =>
    (code? rest).filter fun (code, _) => 0xDC00 ≤ code && code < 0xE000
  | _ => none

def shortEscapes : List (Char × Char) :=
  [('\x22', '\x22'), ('\\', '\\'), ('/', '/'), ('b', '\x08'), ('f', '\x0c'), ('n', '\n'),
    ('r', '\r'), ('t', '\t')]

def shortEscape? : Sym → Option Sym
  | .scalar c => (shortEscapes.lookup c).map .scalar
  | .raw _ => none

def pair? (code : Nat) (rest : Text) : Option (Sym × Text) :=
  match if 0xD800 ≤ code ∧ code < 0xDC00 then lowHalf? rest else none with
  | some (low, rest) =>
    (symOf? (0x10000 + (code - 0xD800) * 0x400 + (low - 0xDC00))).map (·, rest)
  | none => (symOf? code).map (·, rest)

def escape? : Text → Option (Sym × Text)
  | [] => none
  | s :: rest =>
    if s = .scalar 'u' then
      match code? rest with
      | some (code, rest) => pair? code rest
      | none => none
    else (shortEscape? s).map (·, rest)

theorem code?_length {t rest : Text} {code : Nat} (found : code? t = some (code, rest)) :
    rest.length < t.length := by
  unfold code? at found
  split at found
  · obtain ⟨n, -, same⟩ := Option.map_eq_some_iff.mp found
    cases same
    simp only [List.length_cons]
    omega
  · cases found

theorem lowHalf?_length {t rest : Text} {code : Nat} (found : lowHalf? t = some (code, rest)) :
    rest.length < t.length := by
  unfold lowHalf? at found
  split at found
  · have := code?_length (Option.filter_eq_some_iff.mp found).1
    simp only [List.length_cons]
    omega
  · cases found

theorem pair?_length {code : Nat} {t rest : Text} {s : Sym}
    (found : pair? code t = some (s, rest)) :
    rest.length ≤ t.length := by
  unfold pair? at found
  split at found
  · rename_i low last half
    obtain ⟨s', -, same⟩ := Option.map_eq_some_iff.mp found
    cases same
    split at half
    · exact Nat.le_of_lt (lowHalf?_length half)
    · cases half
  · obtain ⟨s', -, same⟩ := Option.map_eq_some_iff.mp found
    cases same
    exact Nat.le_refl _

theorem escape?_length {t rest : Text} {s : Sym} (found : escape? t = some (s, rest)) :
    rest.length < t.length := by
  unfold escape? at found
  split at found
  · cases found
  · split at found
    · split at found
      · rename_i read
        have := code?_length read
        have := pair?_length found
        simp only [List.length_cons]
        omega
      · cases found
    · obtain ⟨s', -, same⟩ := Option.map_eq_some_iff.mp found
      cases same
      simp

def inner? (t : Text) : Option (Text × Text) :=
  match t with
  | [] => none
  | s :: rest =>
    if s = .scalar '\x22' then some ([], rest)
    else if s = .scalar '\\' then
      match _found : escape? rest with
      | some (c, beyond) => (inner? beyond).map fun (t, rest) => (c :: t, rest)
      | none => none
    else if s.code < 0x20 then none
    else (inner? rest).map fun (t, rest) => (s :: t, rest)
termination_by t.length
decreasing_by
  · have := escape?_length _found
    simp only [List.length_cons]
    omega
  · simp

def read? : Text → Option (Text × Text)
  | [] => none
  | s :: rest => if s = .scalar '\x22' then inner? rest else none

/-- What may stand between the quotes for one symbol: no escape is left open, and no quote and no
    control stands there as it is. -/
inductive Piece : Text → Prop
  | plain {s : Sym} (quote : s ≠ .scalar '\x22') (backslash : s ≠ .scalar '\\')
      (control : 0x20 ≤ s.code) : Piece [s]
  | short {s : Sym} (known : (shortEscape? s).isSome) : Piece [.scalar '\\', s]
  | code {digits : Text} (four : digits.length = 4) (hex : ∀ d ∈ digits, (hexDigit? d).isSome) :
      Piece (.scalar '\\' :: .scalar 'u' :: digits)

def Formed (t : Text) : Prop :=
  ∃ pieces : List Text, (∀ piece ∈ pieces, Piece piece) ∧ t = "\"" ++ pieces.flatten ++ "\""

theorem inner?_quote (rest : Text) : inner? (.scalar '\x22' :: rest) = some ([], rest) := by
  rw [inner?]
  rfl

theorem inner?_plain {s : Sym} (quote : s ≠ .scalar '\x22') (backslash : s ≠ .scalar '\\')
    (control : 0x20 ≤ s.code) (rest : Text) :
    inner? (s :: rest) = (inner? rest).map fun (t, rest) => (s :: t, rest) := by
  rw [inner?, if_neg quote, if_neg backslash, if_neg (Nat.not_lt.mpr control)]

theorem inner?_escape {s : Sym} {t rest : Text} (escapes : escape? t = some (s, rest)) :
    inner? (.scalar '\\' :: t) = (inner? rest).map fun (t, rest) => (s :: t, rest) := by
  rw [inner?, if_neg (by decide), if_pos rfl]
  split
  · rename_i found
    cases escapes.symm.trans found
    rfl
  · rename_i missing
    cases escapes.symm.trans missing

theorem hexPadded_control : ∀ n < 0x20, (Text.hexPadded 4 n).length = 4 ∧
    hexNumber? (Text.hexPadded 4 n) = some n ∧ symOf? n = some (.scalar (Char.ofNat n)) ∧
    ∀ d ∈ Text.hexPadded 4 n, (hexDigit? d).isSome ∧ 0x20 ≤ d.code := by
  decide

theorem code?_exact {digits : Text} (four : digits.length = 4) (rest : Text) :
    code? (digits ++ rest) = (hexNumber? digits).map (·, rest) := by
  obtain ⟨a, b, c, d, rfl⟩ := List.length_eq_four.mp four
  rfl

theorem escape?_control {n : Nat} (control : n < 0x20) (rest : Text) :
    escape? (.scalar 'u' :: (Text.hexPadded 4 n ++ rest)) =
      some (.scalar (Char.ofNat n), rest) := by
  obtain ⟨four, number, symbol, -⟩ := hexPadded_control n control
  have single : ¬ (0xD800 ≤ n ∧ n < 0xDC00) := by omega
  rw [escape?, if_pos rfl, code?_exact four, number, Option.map_some]
  simp only [pair?, if_neg single, symbol, Option.map_some]

theorem escaped_plain {s : Sym} (quote : s ≠ .scalar '\x22') (backslash : s ≠ .scalar '\\')
    (visible : 0x20 ≤ s.code) : escaped s = [s] := by
  have other (c : Char) (control : c.toNat < 0x20) : s ≠ .scalar c := by
    rintro rfl
    exact Nat.not_lt.mpr visible control
  rw [escaped, if_neg quote, if_neg backslash, if_neg (other '\n' (by decide)),
    if_neg (other '\r' (by decide)), if_neg (other '\t' (by decide)),
    if_neg (other '\x08' (by decide)), if_neg (other '\x0c' (by decide)),
    if_neg (Nat.not_lt.mpr visible)]

theorem escaped_cases (s : Sym) :
    (escaped s = [s] ∧ s ≠ .scalar '\x22' ∧ s ≠ .scalar '\\' ∧ 0x20 ≤ s.code) ∨
    ∃ tail, escaped s = .scalar '\\' :: tail ∧ Piece (escaped s) ∧ (∀ c ∈ tail, 0x20 ≤ c.code) ∧
      ∀ rest, escape? (tail ++ rest) = some (s, rest) := by
  have short {c d : Char} (known : shortEscape? (.scalar c) = some (.scalar d))
      (other : c ≠ 'u') (visible : 0x20 ≤ c.toNat) (same : escaped (.scalar d) = ['\\', c]) :
      ∃ tail, escaped (.scalar d) = .scalar '\\' :: tail ∧ Piece (escaped (.scalar d)) ∧
        (∀ c ∈ tail, 0x20 ≤ c.code) ∧
        ∀ rest, escape? (tail ++ rest) = some (.scalar d, rest) := by
    refine ⟨[.scalar c], same, same ▸ .short (by rw [known]; rfl), by simpa [Sym.code], ?_⟩
    intro rest
    rw [List.singleton_append, escape?, if_neg (by simpa using other), known]
    rfl
  by_cases quote : s = .scalar '\x22'
  · exact .inr (quote ▸ short (c := '\x22') rfl (by decide) (by decide) rfl)
  by_cases backslash : s = .scalar '\\'
  · exact .inr (backslash ▸ short (c := '\\') rfl (by decide) (by decide) rfl)
  by_cases newline : s = .scalar '\n'
  · exact .inr (newline ▸ short (c := 'n') rfl (by decide) (by decide) rfl)
  by_cases carriage : s = .scalar '\r'
  · exact .inr (carriage ▸ short (c := 'r') rfl (by decide) (by decide) rfl)
  by_cases tab : s = .scalar '\t'
  · exact .inr (tab ▸ short (c := 't') rfl (by decide) (by decide) rfl)
  by_cases backspace : s = .scalar '\x08'
  · exact .inr (backspace ▸ short (c := 'b') rfl (by decide) (by decide) rfl)
  by_cases feed : s = .scalar '\x0c'
  · exact .inr (feed ▸ short (c := 'f') rfl (by decide) (by decide) rfl)
  by_cases control : s.code < 0x20
  · right
    obtain ⟨four, -, -, digits⟩ := hexPadded_control s.code control
    have same : escaped s = .scalar '\\' :: .scalar 'u' :: Text.hexPadded 4 s.code := by
      simp only [escaped, quote, backslash, newline, carriage, tab, backspace, feed, control,
        if_true, if_false]
      rfl
    have symbol : Sym.scalar (Char.ofNat s.code) = s := by
      cases s with
      | scalar c => exact congrArg _ (Char.ofNat_toNat c)
      | raw low => simp [Sym.code] at control; omega
    refine ⟨_, same, same ▸ .code four fun d member => (digits d member).1, ?_, fun rest => ?_⟩
    · intro c member
      rcases List.mem_cons.mp member with rfl | member
      · decide
      · exact (digits c member).2
    · rw [List.cons_append, escape?_control control, symbol]
  · have visible := Nat.not_lt.mp control
    exact .inl ⟨escaped_plain quote backslash visible, quote, backslash, visible⟩

theorem inner?_escaped (s : Sym) (rest : Text) :
    inner? (escaped s ++ rest) = (inner? rest).map fun (t, rest) => (s :: t, rest) := by
  rcases escaped_cases s with ⟨same, quote, backslash, control⟩ | ⟨tail, same, -, -, reads⟩
  · rw [same]
    exact inner?_plain quote backslash control rest
  · rw [same, List.cons_append, inner?_escape (reads rest)]

theorem inner?_ofText (t rest : Text) :
    inner? (t.flatMap escaped ++ .scalar '\x22' :: rest) = some (t, rest) := by
  induction t with
  | nil => exact inner?_quote rest
  | cons s t ih => rw [List.flatMap_cons, List.append_assoc, inner?_escaped, ih, Option.map_some]

theorem ofText_append (t rest : Text) :
    ofText t ++ rest = .scalar '\x22' :: (t.flatMap escaped ++ .scalar '\x22' :: rest) :=
  List.append_assoc _ _ _

theorem read?_ofText (t rest : Text) : read? (ofText t ++ rest) = some (t, rest) := by
  rw [ofText_append, read?, if_pos rfl, inner?_ofText]

theorem ofText_injective : Function.Injective ofText := by
  intro t u same
  have read := read?_ofText t []
  rw [same, read?_ofText] at read
  exact (Prod.mk.inj (Option.some.inj read)).1.symm

theorem piece_escaped (s : Sym) : Piece (escaped s) := by
  rcases escaped_cases s with ⟨same, quote, backslash, control⟩ | ⟨-, -, piece, -⟩
  · exact same ▸ .plain quote backslash control
  · exact piece

theorem ofText_formed (t : Text) : Formed (ofText t) := by
  refine ⟨t.map escaped, fun piece member => ?_, by rw [ofText, List.flatMap_def]⟩
  obtain ⟨s, -, rfl⟩ := List.mem_map.mp member
  exact piece_escaped s

theorem ofText_visible (t : Text) : ∀ s ∈ ofText t, 0x20 ≤ s.code := by
  intro s member
  rcases List.mem_append.mp member with member | last
  · rcases List.mem_append.mp member with first | inside
    · obtain rfl := List.mem_singleton.mp first
      decide
    · obtain ⟨c, -, inside⟩ := List.mem_flatMap.mp inside
      rcases escaped_cases c with ⟨same, -, -, control⟩ | ⟨tail, same, -, visible, -⟩
      · rw [same] at inside
        obtain rfl := List.mem_singleton.mp inside
        exact control
      · rw [same] at inside
        rcases List.mem_cons.mp inside with rfl | inside
        · decide
        · exact visible s inside
  · obtain rfl := List.mem_singleton.mp last
    decide

end Unbundle.Literal
