import Unbundle.Proofs.Text.Bytes

namespace Unbundle.Utf8

theorem rank_beyond (b : UInt8) : b.toNat - 0x80 < 0x80 := by
  have bound := b.toNat_lt
  omega

/-- A byte as the symbol it is read as where it stands alone. -/
def byteSym (b : UInt8) : Sym :=
  if b.toNat < 0x80 then .scalar (Char.ofNat b.toNat)
  else .raw ⟨b.toNat - 0x80, rank_beyond b⟩

def bytewise (t : Text) : Text := (encode t).map byteSym

theorem symBytes_byteSym (b : UInt8) : symBytes (byteSym b) = [b] := by
  unfold byteSym
  split
  · rename_i ascii
    obtain ⟨valid, form⟩ := spells_one ascii
    rw [symBytes, toNat_of_valid valid, form]
  · exact congrArg (List.cons · []) (ofNat_eq (Nat.add_sub_cancel' (by omega)))

theorem byteSym_injective : Function.Injective byteSym := by
  intro b c same
  have bytes := congrArg symBytes same
  rw [symBytes_byteSym, symBytes_byteSym] at bytes
  exact List.head_eq_of_cons_eq bytes

theorem bytewise_inj {t u : Text} : bytewise t = bytewise u ↔ encode t = encode u :=
  byteSym_injective.list_map.eq_iff

theorem bytewise_append (t u : Text) : bytewise (t ++ u) = bytewise t ++ bytewise u := by
  rw [bytewise, encode_append, List.map_append, bytewise, bytewise]

theorem bytewise_cons (s : Sym) (t : Text) : bytewise (s :: t) = bytewise [s] ++ bytewise t :=
  bytewise_append [s] t

theorem toNat_ofNat_of_lt {n : Nat} (byte : n < 0x100) : (UInt8.ofNat n).toNat = n := by
  rw [UInt8.toNat_ofNat', Nat.mod_eq_of_lt byte]

theorem byteSym_code {b : UInt8} (beyond : 0x80 ≤ b.toNat) : 0x80 ≤ (byteSym b).code := by
  rw [byteSym, if_neg (Nat.not_lt.mpr beyond), Sym.code]
  exact Nat.le_add_right_of_le (by decide)

theorem scalarBytes_beyond {c : Char} (beyond : 0x80 ≤ c.toNat) :
    ∀ b ∈ scalarBytes c.toNat, 0x80 ≤ b.toNat := by
  have valid : c.toNat < 0x110000 := by
    rcases c.valid with low | high
    · exact Nat.lt_trans low (by decide)
    · exact high.2
  have byte {n : Nat} (low : 0x80 ≤ n) (high : n < 0x100) : 0x80 ≤ (UInt8.ofNat n).toNat := by
    rw [toNat_ofNat_of_lt high]
    exact low
  unfold scalarBytes
  rw [if_neg (Nat.not_lt.mpr beyond)]
  split
  · rw [List.forall_mem_cons, List.forall_mem_singleton]
    exact ⟨byte (by omega) (by omega), byte (by omega) (by omega)⟩
  split
  · rw [List.forall_mem_cons, List.forall_mem_cons, List.forall_mem_singleton]
    exact ⟨byte (by omega) (by omega), byte (by omega) (by omega), byte (by omega) (by omega)⟩
  · rw [List.forall_mem_cons, List.forall_mem_cons, List.forall_mem_cons, List.forall_mem_singleton]
    exact ⟨byte (by omega) (by omega), byte (by omega) (by omega), byte (by omega) (by omega),
      byte (by omega) (by omega)⟩

theorem bytewise_symbol {s : Sym} (ascii : s.code < 0x80) : bytewise [s] = [s] := by
  cases s with
  | scalar c =>
    change c.toNat < 0x80 at ascii
    have bytes : encode [.scalar c] = [UInt8.ofNat c.toNat] := by
      rw [encode, List.flatMap_singleton, symBytes, scalarBytes, if_pos ascii]
    have number : (UInt8.ofNat c.toNat).toNat = c.toNat := toNat_ofNat_of_lt (by omega)
    have symbol : byteSym (UInt8.ofNat c.toNat) =
        .scalar (Char.ofNat (UInt8.ofNat c.toNat).toNat) :=
      if_pos (by rwa [number])
    rw [bytewise, bytes, List.map_singleton, symbol, number, Char.ofNat_toNat]
  | raw low =>
    simp only [Sym.code] at ascii
    omega

theorem bytewise_ascii {t : Text} (ascii : ∀ s ∈ t, s.code < 0x80) : bytewise t = t := by
  induction t with
  | nil => rfl
  | cons s t ih =>
    obtain ⟨first, ascii⟩ := List.forall_mem_cons.mp ascii
    rw [bytewise_cons, bytewise_symbol first, ih ascii, List.singleton_append]

theorem bytewise_beyond {s : Sym} (beyond : 0x80 ≤ s.code) : ∀ c ∈ bytewise [s], 0x80 ≤ c.code := by
  have bytes : ∀ b ∈ symBytes s, 0x80 ≤ b.toNat := by
    cases s with
    | scalar c => exact scalarBytes_beyond beyond
    | raw low =>
      rw [symBytes, List.forall_mem_singleton, toNat_ofNat_of_lt (by omega)]
      omega
  intro c member
  rw [bytewise, encode, List.flatMap_singleton] at member
  obtain ⟨b, inside, rfl⟩ := List.mem_map.mp member
  exact byteSym_code (bytes b inside)

/-- What replaces ASCII symbols only, by ASCII symbols, does the same to a text and to its bytes. -/
theorem bytewise_flatMap {f : Sym → Text} (keeps : ∀ s, 0x80 ≤ s.code → f s = [s])
    (ascii : ∀ s, s.code < 0x80 → ∀ c ∈ f s, c.code < 0x80) (t : Text) :
    bytewise (t.flatMap f) = (bytewise t).flatMap f := by
  induction t with
  | nil => rfl
  | cons s t ih =>
    have symbol : bytewise (f s) = (bytewise [s]).flatMap f := by
      rcases Nat.lt_or_ge s.code 0x80 with low | high
      · rw [bytewise_ascii (ascii s low), bytewise_symbol low, List.flatMap_singleton]
      · have kept : (bytewise [s]).flatMap f = (bytewise [s]).flatMap fun c => [c] :=
          List.flatMap_congr fun c member => keeps c (bytewise_beyond high c member)
        rw [keeps s high, kept, List.flatMap_singleton']
    rw [List.flatMap_cons, bytewise_append, symbol, ih, bytewise_cons s t, List.flatMap_append]

end Unbundle.Utf8
