import Unbundle.Proofs.Markup.Agreement
import Unbundle.Proofs.Markup.Append
import Unbundle.Proofs.Markup.Placement
import Unbundle.Proofs.Text.Slice

namespace Unbundle.Markup

def folded (pos : Nat) (t : Text) : Cursor := ⟨pos, t, t.map Sym.asciiLower⟩

/-- How many symbols a scan passes over from a `<` on. -/
def reach (t : Text) : Option Nat := (folded 0 t).readTag.map fun read => read.2 + 1

theorem readBlock_reach (pos : Nat) (t : Text) (kind : Kind) :
    ((folded pos t).readBlock kind).2 = ((folded 0 t).readBlock kind).2 := by
  unfold Cursor.readBlock folded
  dsimp only
  repeat' split
  all_goals rfl

theorem readTag_reach (pos : Nat) (t : Text) :
    (folded pos t).readTag.map (fun read => read.2 + 1) = reach t := by
  have same : ∀ needle, (folded pos t).startsWith needle = (folded 0 t).startsWith needle :=
    fun _ => rfl
  have kind : (folded pos t).blockKind? = (folded 0 t).blockKind? := rfl
  unfold reach Cursor.readTag
  rw [same, same, same, kind]
  by_cases comment : (folded 0 t).startsWith "<!--"
  · simp only [comment, if_true, Option.map_map]
    rfl
  · by_cases declaration : (folded 0 t).startsWith "<!" || (folded 0 t).startsWith "<?"
    · simp only [comment, declaration, Bool.false_eq_true, if_true, if_false, Option.map_map]
      rfl
    · simp only [comment, declaration, Bool.false_eq_true, if_false]
      cases (folded 0 t).blockKind? with
      | none => rfl
      | some kind => exact congrArg (fun n => some (n + 1)) (readBlock_reach pos t kind)

/-- An opening tag of a style or script, and nothing behind it. -/
structure Opening (kind : Kind) (t : Text) : Prop where
  begins : (folded 0 t).blockKind? = some kind
  ends : ∃ n, tagEnd? none (t.drop 1) = some n ∧ n + 2 = t.length

/-- The content of an element and its closing tag, and nothing behind it. -/
def Body (kind : Kind) (t : Text) : Prop :=
  ∃ k m, closing? kind.name (t.map Sym.asciiLower) = some k ∧
    (t.drop k).findIdx? (· == .scalar '>') = some m ∧ k + m + 1 = t.length

/-- A comment, a declaration or an element, and nothing behind it. -/
inductive Piece : Text → Prop
  | comment {t : Text} {n : Nat} (begins : (folded 0 t).startsWith "<!--")
      (ends : Text.find? "-->" (t.drop 4) = some n) (whole : n + 7 = t.length) : Piece t
  | declaration {t : Text} {n : Nat} (comment : ¬ (folded 0 t).startsWith "<!--")
      (begins : (folded 0 t).startsWith "<!" ∨ (folded 0 t).startsWith "<?")
      (ends : t.findIdx? (· == .scalar '>') = some n) (whole : n + 1 = t.length) : Piece t
  | element {kind : Kind} {tag body : Text} (opening : Opening kind tag)
      (closing : Body kind body) : Piece (tag ++ body)

theorem Opening.closed {kind : Kind} {t : Text} (opening : Opening kind t) : t.Closed := by
  obtain ⟨n, ends, whole⟩ := opening.ends
  have last := (tagEnd_least ends).1.1
  rw [Text.Closed, List.getLast?_eq_getElem?, ← last, List.getElem?_drop]
  congr 1
  omega

section Append

variable {t : Text} (closed : t.Closed) (rest : Text)

include closed

theorem startsWith_append (pos : Nat) (needle : Text) (last : .scalar '>' ∉ needle.dropLast) :
    (folded pos (t ++ rest)).startsWith needle = (folded 0 t).startsWith needle := by
  unfold Cursor.startsWith folded
  rw [List.map_append]
  exact isPrefixOf_append closed.map_asciiLower needle last _

theorem blockKind?_append (pos : Nat) (long : 1 < t.length) :
    (folded pos (t ++ rest)).blockKind? = (folded 0 t).blockKind? := by
  have opens : ∀ kind : Kind,
      (folded pos (t ++ rest)).opens kind.name = (folded 0 t).opens kind.name := by
    intro kind
    have tail : Text.Closed ((t.map Sym.asciiLower).drop 1) := closed.map_asciiLower.drop (by simpa)
    unfold Cursor.opens folded
    rw [List.map_append, List.drop_append_of_le_length (by rw [List.length_map]; omega)]
    exact namesTag_append tail (by cases kind <;> decide) _
  unfold Cursor.blockKind?
  rw [opens, opens]

end Append

theorem blockKind?_not_declaration {t : Text} {kind : Kind}
    (begins : (folded 0 t).blockKind? = some kind) :
    (folded 0 t).startsWith "<!--" = false ∧
      ((folded 0 t).startsWith "<!" || (folded 0 t).startsWith "<?") = false := by
  have named : ∃ kind : Kind, namesTag kind.name ((t.map Sym.asciiLower).drop 1) := by
    unfold Cursor.blockKind? at begins
    split at begins
    · exact ⟨.style, ‹_›⟩
    · split at begins
      · exact ⟨.script, ‹_›⟩
      · cases begins
  obtain ⟨kind, named⟩ := named
  unfold Cursor.startsWith folded
  dsimp only
  generalize t.map Sym.asciiLower = low at named
  cases low with
  | nil => cases kind <;> cases named
  | cons first low =>
    cases low with
    | nil => cases kind <;> cases named
    | cons second low =>
      have begun := List.isPrefixOf_iff_prefix.mp (Bool.and_eq_true_iff.mp named).1
      have letter : second = .scalar 's' := by
        obtain ⟨rest, split⟩ := begun
        cases kind <;> exact (List.cons.inj split).1.symm
      subst letter
      simp [List.isPrefixOf]

def elementRest (kind : Kind) (behind : Text) : Nat :=
  match closing? kind.name (behind.map Sym.asciiLower) with
  | none => 0
  | some k =>
    match (behind.drop k).findIdx? (· == .scalar '>') with
    | none => 0
    | some m => k + m + 1

theorem readBlock_opening {kind : Kind} {tag : Text} (opening : Opening kind tag) (pos : Nat)
    (behind : Text) :
    ((folded pos (tag ++ behind)).readBlock kind).2 + 1 = tag.length + elementRest kind behind ∧
      (((folded pos (tag ++ behind)).readBlock kind).1 = .unclosed kind ∧
          elementRest kind behind = 0 ∨
        ∃ b, ((folded pos (tag ++ behind)).readBlock kind).1 = .block b ∧
          elementRest kind behind ≠ 0) := by
  obtain ⟨n, ends, whole⟩ := opening.ends
  have tagEnds : tagEnd? none ((tag ++ behind).drop 1) = some n := by
    rw [List.drop_append_of_le_length (by omega), tagEnd?_append, ends]
    rfl
  have low : ((tag ++ behind).map Sym.asciiLower).drop (n + 2) = behind.map Sym.asciiLower := by
    rw [whole, ← List.map_drop, List.drop_left]
  unfold Cursor.readBlock elementRest folded
  simp only [tagEnds, low]
  cases closing? kind.name (behind.map Sym.asciiLower) with
  | none => exact ⟨whole, .inl ⟨rfl, rfl⟩⟩
  | some k =>
    have rest : (tag ++ behind).drop (n + 2 + k) = behind.drop k := by
      rw [← List.drop_drop, whole, List.drop_left]
    simp only [rest]
    cases (behind.drop k).findIdx? (· == .scalar '>') with
    | none => exact ⟨whole, .inl ⟨rfl, rfl⟩⟩
    | some m => exact ⟨by dsimp only; omega, .inr ⟨_, rfl, by simp⟩⟩

theorem readTag_opening {kind : Kind} {tag : Text} (opening : Opening kind tag) (pos : Nat)
    (behind : Text) :
    (folded pos (tag ++ behind)).readTag =
      some (some ((folded pos (tag ++ behind)).readBlock kind).1,
        ((folded pos (tag ++ behind)).readBlock kind).2) := by
  obtain ⟨n, -, whole⟩ := opening.ends
  have begins := opening.begins
  rw [← blockKind?_append opening.closed behind 0 (by omega)] at begins
  obtain ⟨comment, declaration⟩ := blockKind?_not_declaration begins
  have same : (folded pos (tag ++ behind)).blockKind? = some kind := begins
  unfold Cursor.readTag
  change (if (folded 0 (tag ++ behind)).startsWith "<!--" then _ else
    if (folded 0 (tag ++ behind)).startsWith "<!" || (folded 0 (tag ++ behind)).startsWith "<?"
      then _ else _) = _
  rw [comment, declaration, same]
  rfl

theorem reach_opening {kind : Kind} {tag : Text} (opening : Opening kind tag) (behind : Text) :
    reach (tag ++ behind) = some (tag.length + elementRest kind behind) := by
  rw [reach, readTag_opening opening]
  exact congrArg some (readBlock_opening opening 0 behind).1

theorem closed_of_last {t : Text} {n : Nat} (stands : t[n]? = some (.scalar '>'))
    (last : n + 1 = t.length) : t.Closed := by
  rw [Text.Closed, List.getLast?_eq_getElem?, ← stands]
  congr 1
  omega

theorem findIdx?_closed {t : Text} {n : Nat} (ends : t.findIdx? (· == .scalar '>') = some n)
    (whole : n + 1 = t.length) : t.Closed := by
  have least := findIdx_least (t := t) (p := 0) ends
  rw [Nat.zero_add] at least
  exact closed_of_last least.1.2 whole

theorem Body.closed {kind : Kind} {t : Text} (body : Body kind t) : t.Closed := by
  obtain ⟨k, m, -, ends, whole⟩ := body
  have last : Text.Closed (t.drop k) := findIdx?_closed ends (by rw [List.length_drop]; omega)
  rw [← List.take_append_drop k t]
  exact last.append _

theorem Piece.closed {t : Text} (piece : Piece t) : t.Closed := by
  cases piece with
  | @comment t n begins ends whole =>
    have found := List.isPrefixOf_iff_prefix.mp ((find_searches (by decide)).least ends).1
    rw [List.drop_drop] at found
    exact closed_of_last (Text.getElem?_of_begins found (x := 2) rfl) (by omega)
  | @declaration t n comment begins ends whole => exact findIdx?_closed ends whole
  | @element kind tag body opening closing => exact closing.closed.append _

theorem Body.rest {kind : Kind} {t : Text} (body : Body kind t) (rest : Text) :
    elementRest kind (t ++ rest) = t.length := by
  have closed := body.closed
  obtain ⟨k, m, closing, ends, whole⟩ := body
  unfold elementRest
  rw [List.map_append, closing?_append closed.map_asciiLower, closing]
  simp only [Option.some_or]
  rw [List.drop_append_of_le_length (by omega), List.findIdx?_append, ends]
  exact whole

/-- What is complete is passed over as a whole, whatever follows. -/
theorem Piece.reach {t : Text} (piece : Piece t) (rest : Text) :
    Markup.reach (t ++ rest) = some t.length := by
  have closed := piece.closed
  cases piece with
  | @comment t n begins ends whole =>
    have tail : Text.Closed (t.drop 4) := closed.drop (by omega)
    unfold Markup.reach Cursor.readTag
    rw [startsWith_append closed rest 0 "<!--" (by decide), if_pos begins]
    change (Option.map _ (Text.find? "-->" ((t ++ rest).drop 4))).map _ = _
    rw [List.drop_append_of_le_length (by omega), find?_append tail, ends]
    exact congrArg some whole
  | @declaration t n comment begins ends whole =>
    unfold Markup.reach Cursor.readTag
    rw [startsWith_append closed rest 0 "<!--" (by decide),
      startsWith_append closed rest 0 "<!" (by decide),
      startsWith_append closed rest 0 "<?" (by decide), if_neg comment,
      if_pos (Bool.or_eq_true_iff.mpr begins)]
    change (Option.map _ ((t ++ rest).findIdx? (· == .scalar '>'))).map _ = _
    rw [List.findIdx?_append, ends]
    exact congrArg some whole
  | @element kind tag body opening closing =>
    rw [List.append_assoc, reach_opening opening, closing.rest, List.length_append]

theorem Opening.of_tagEnd {kind : Kind} {t rest : Text} {n : Nat}
    (begins : (folded 0 (t ++ rest)).blockKind? = some kind)
    (ends : tagEnd? none (t.drop 1) = some n) : Opening kind (t.take (n + 2)) := by
  have last := (tagEnd_least ends).1.1
  rw [List.getElem?_drop] at last
  have short := Markup.position_lt last
  have stands : (t.take (n + 2))[n + 1]? = some (.scalar '>') := by
    rw [List.getElem?_take_of_lt (by omega), ← last, Nat.add_comm]
  have length : (t.take (n + 2)).length = n + 2 := by
    rw [List.length_take]
    omega
  have tag_closed : Text.Closed (t.take (n + 2)) := closed_of_last stands length.symm
  constructor
  · rw [← blockKind?_append tag_closed (t.drop (n + 2) ++ rest) 0 (by omega), ← List.append_assoc,
      List.take_append_drop]
    exact begins
  · refine ⟨n, ?_, length.symm⟩
    have parts := tagEnd?_append none ((t.drop 1).take (n + 1)) ((t.drop 1).drop (n + 1))
    rw [List.take_append_drop, ends] at parts
    have same : (t.take (n + 2)).drop 1 = (t.drop 1).take (n + 1) := by
      rw [List.drop_take]
      rfl
    rw [same]
    refine found_first parts.symm fun m => ?_
    rw [List.length_take, List.length_drop]
    omega

theorem readBlock_beyond {t : Text} {kind : Kind} {pos k : Nat} (long : 1 < k)
    (beyond : ∀ n, tagEnd? none (t.drop 1) = some n → k ≤ n + 1) :
    ((folded pos t).readBlock kind).2 + 1 ≠ k := by
  unfold Cursor.readBlock folded
  dsimp only
  split
  · dsimp only
    omega
  · rename_i n found
    have late := beyond n found
    repeat' split
    all_goals
      dsimp only
      omega

section Whole

variable {t rest : Text} {kind : Kind} (closed : t.Closed)

include closed

theorem Body.of_rest (ends : elementRest kind (t ++ rest) = t.length) : Body kind t := by
  have nonempty := List.length_pos_iff.mpr closed.ne_nil
  unfold elementRest at ends
  rw [List.map_append, closing?_append closed.map_asciiLower] at ends
  split at ends
  · omega
  · rename_i k found
    split at ends
    · omega
    · rename_i m last
      have inside : closing? kind.name (t.map Sym.asciiLower) = some k := by
        refine found_first found fun i => ?_
        rw [List.length_map]
        omega
      refine ⟨k, m, inside, ?_, ends⟩
      rw [List.drop_append_of_le_length (by omega), List.findIdx?_append] at last
      refine found_first last fun i => ?_
      rw [List.length_drop]
      omega

theorem element_or_opening (begins : (folded 0 (t ++ rest)).blockKind? = some kind) (pos : Nat)
    (long : 1 < t.length)
    (whole : ((folded pos (t ++ rest)).readBlock kind).2 + 1 = t.length) :
    Piece t ∧ (∃ b, ((folded pos (t ++ rest)).readBlock kind).1 = .block b) ∨
      ((folded pos (t ++ rest)).readBlock kind).1 = .unclosed kind ∧ Opening kind t ∧
        elementRest kind rest = 0 := by
  have parts := tagEnd?_append none (t.drop 1) rest
  rw [← List.drop_append_of_le_length (by omega)] at parts
  cases here : tagEnd? none (t.drop 1) with
  | none =>
    exfalso
    rw [here, Option.none_or] at parts
    refine readBlock_beyond long ?_ whole
    intro n found
    rw [parts, Option.map_eq_some_iff] at found
    obtain ⟨k, -, rfl⟩ := found
    rw [List.length_drop]
    omega
  | some n =>
    have opening := Opening.of_tagEnd begins here
    have split : t ++ rest = t.take (n + 2) ++ (t.drop (n + 2) ++ rest) := by
      rw [← List.append_assoc, List.take_append_drop]
    obtain ⟨reached, outcome⟩ := readBlock_opening opening pos (t.drop (n + 2) ++ rest)
    rw [← split] at reached outcome
    have length := congrArg List.length (List.take_append_drop (n + 2) t)
    rw [List.length_append] at length
    have rested : elementRest kind (t.drop (n + 2) ++ rest) = (t.drop (n + 2)).length := by omega
    rcases outcome with ⟨unclosed, nothing⟩ | ⟨b, block, something⟩
    · rw [rested, List.length_eq_zero_iff] at nothing
      have all : t.take (n + 2) = t := by
        rw [← List.append_nil (t.take (n + 2)), ← nothing, List.take_append_drop]
      rw [all] at opening
      rw [nothing, List.nil_append] at rested
      exact .inr ⟨unclosed, opening, rested⟩
    · rw [rested] at something
      have body : Body kind (t.drop (n + 2)) := by
        refine Body.of_rest (closed.drop ?_) rested
        rw [List.length_drop] at something
        omega
      have piece := Piece.element opening body
      rw [List.take_append_drop] at piece
      exact .inl ⟨piece, b, block⟩

theorem piece_or_opening {pos n : Nat} {mark : Option Mark} (long : 1 < t.length)
    (read : (folded pos (t ++ rest)).readTag = some (mark, n)) (whole : n + 1 = t.length) :
    Piece t ∧ (∀ kind, mark ≠ some (.unclosed kind)) ∨
      ∃ kind, mark = some (.unclosed kind) ∧ Opening kind t ∧ elementRest kind rest = 0 := by
  unfold Cursor.readTag at read
  rw [startsWith_append closed rest pos "<!--" (by decide),
    startsWith_append closed rest pos "<!" (by decide),
    startsWith_append closed rest pos "<?" (by decide)] at read
  split at read
  · rename_i comment
    obtain ⟨k, found, same⟩ := Option.map_eq_some_iff.mp read
    cases same
    have found : Text.find? "-->" ((t ++ rest).drop 4) = some k := found
    rw [List.drop_append_of_le_length (by omega), find?_append (closed.drop (by omega))] at found
    have inside : Text.find? "-->" (t.drop 4) = some k := by
      refine found_first found fun m => ?_
      rw [List.length_drop]
      omega
    exact .inl ⟨.comment comment inside whole, by simp⟩
  · rename_i comment
    split at read
    · rename_i declaration
      obtain ⟨k, found, same⟩ := Option.map_eq_some_iff.mp read
      cases same
      have found : (t ++ rest).findIdx? (· == .scalar '>') = some n := found
      rw [List.findIdx?_append] at found
      have inside : t.findIdx? (· == .scalar '>') = some n := found_first found fun m => by omega
      refine .inl ⟨.declaration comment (Bool.or_eq_true_iff.mp declaration) inside whole, ?_⟩
      intro kind
      split <;> simp
    · split at read
      · rename_i kind begins
        have same : some (some ((folded pos (t ++ rest)).readBlock kind).1,
            ((folded pos (t ++ rest)).readBlock kind).2) = some (mark, n) := read
        simp only [Option.some.injEq, Prod.mk.injEq] at same
        obtain ⟨rfl, rfl⟩ := same
        rcases element_or_opening closed begins pos long whole with ⟨piece, b, block⟩ | unclosed
        · rw [block]
          exact .inl ⟨piece, by simp⟩
        · rw [unclosed.1]
          exact .inr ⟨kind, rfl, unclosed.2⟩
      · cases read
        omega

end Whole

end Unbundle.Markup
