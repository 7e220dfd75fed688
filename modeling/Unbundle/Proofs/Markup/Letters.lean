import Unbundle.Proofs.Markup.Agreement
import Unbundle.Proofs.Markup.Origin
import Unbundle.Proofs.Text.Letters

namespace Unbundle

namespace Attributes

/-- The attributes with the ASCII letters of their values in lower case. -/
def folded (as : Attributes) : Attributes :=
  as.map fun (name, value) => (name, value.map Sym.asciiLower)

theorem get?_folded (as : Attributes) (name : Text) :
    as.folded.get? name = (as.get? name).map (List.map Sym.asciiLower) := by
  induction as with
  | nil => rfl
  | cons a as ih =>
    simp only [folded, get?, List.map_cons, List.lookup] at ih ⊢
    split
    · rfl
    · exact ih

@[simp]
theorem has_folded (as : Attributes) (name : Text) : as.folded.has name = as.has name := by
  rw [has, get?_folded, Option.isSome_map, has]

theorem add_folded (as : Attributes) (name value : Text) :
    as.folded.add name (value.map Sym.asciiLower) = (as.add name value).folded := by
  rw [add, has_folded, add]
  split
  · rfl
  · simp [folded]

theorem ofList_folded (as : List (Text × Text)) : ofList (folded as) = (ofList as).folded := by
  have started : ∀ found : Attributes,
      (folded as).foldl (fun found (name, value) => found.add name value) found.folded =
        (as.foldl (fun found (name, value) => found.add name value) found).folded := by
    induction as with
    | nil => simp [folded]
    | cons a as ih =>
      intro found
      have first := add_folded found a.1 a.2
      simp only [folded, List.map_cons, List.foldl_cons] at first ih ⊢
      rw [first, ih]
  exact started []

end Attributes

namespace Markup

theorem isNameSym_asciiLower (s : Sym) : isNameSym s.asciiLower = isNameSym s :=
  Sym.asciiLower_blind (by decide) s

theorem isBareSym_asciiLower (s : Sym) : isBareSym s.asciiLower = isBareSym s :=
  Sym.asciiLower_blind (by decide) s

def foldedRest (read : Text × Text) : Text × Text :=
  (read.1.map Sym.asciiLower, read.2.map Sym.asciiLower)

theorem quotedValue?_asciiLower {quote : Sym} (plain : quote.isLetter = false) (t : Text) :
    quotedValue? quote (t.map Sym.asciiLower) = (quotedValue? quote t).map foldedRest := by
  induction t with
  | nil => rfl
  | cons s rest ih =>
    simp only [List.map_cons, quotedValue?, s.asciiLower_eq_iff plain, ih]
    split
    · rfl
    · simp [Function.comp_def, foldedRest]

def valueFrom? (s : Sym) (rest : Text) : Option (Text × Text) :=
  if s = .scalar '\x22' ∨ s = .scalar '\x27' then quotedValue? s rest
  else if isBareSym s then some (s :: rest.takeWhile isBareSym, rest.dropWhile isBareSym)
  else none

theorem value?_eq (t : Text) : value? t = match t.dropWhile Sym.isBlank with
    | [] => none
    | s :: t =>
      if s = .scalar '=' then
        match t.dropWhile Sym.isBlank with
        | [] => none
        | s :: rest => valueFrom? s rest
      else none := by
  unfold value?
  cases t.dropWhile Sym.isBlank with
  | nil => rfl
  | cons s t =>
    by_cases sign : s = .scalar '='
    · subst sign
      simp only [if_true]
      rfl
    · simp only [sign, if_false]
      split
      · rename_i same
        cases same
        contradiction
      · rfl

theorem valueFrom?_asciiLower (s : Sym) (rest : Text) :
    valueFrom? s.asciiLower (rest.map Sym.asciiLower) = (valueFrom? s rest).map foldedRest := by
  have double := s.asciiLower_eq_iff (x := .scalar '\x22') (by decide)
  have single := s.asciiLower_eq_iff (x := .scalar '\x27') (by decide)
  simp only [valueFrom?, double, single, isBareSym_asciiLower,
    Text.takeWhile_asciiLower isBareSym_asciiLower, Text.dropWhile_asciiLower isBareSym_asciiLower]
  split
  · rename_i quote
    have fixed : s.asciiLower = s ∧ s.isLetter = false := by
      rcases quote with rfl | rfl <;> decide
    rw [fixed.1, quotedValue?_asciiLower fixed.2]
  · split <;> rfl

theorem value?_asciiLower (t : Text) :
    value? (t.map Sym.asciiLower) = (value? t).map foldedRest := by
  rw [value?_eq, value?_eq, Text.dropWhile_asciiLower Sym.isBlank_asciiLower]
  cases t.dropWhile Sym.isBlank with
  | nil => rfl
  | cons s t =>
    have sign := s.asciiLower_eq_iff (x := .scalar '=') (by decide)
    simp only [List.map_cons, sign, Text.dropWhile_asciiLower Sym.isBlank_asciiLower]
    split
    · cases t.dropWhile Sym.isBlank with
      | nil => rfl
      | cons s rest => exact valueFrom?_asciiLower s rest
    · rfl

theorem attributesIn_eq (t : Text) :
    attributesIn t = match t.dropWhile (!isNameSym ·) with
      | [] => []
      | s :: rest => match value? (rest.dropWhile isNameSym) with
        | some (value, beyond) =>
          (Text.lower (s :: rest.takeWhile isNameSym), value) :: attributesIn beyond
        | none =>
          (Text.lower (s :: rest.takeWhile isNameSym), []) ::
            attributesIn (rest.dropWhile isNameSym) := by
  rw [attributesIn]
  split
  · rename_i start
    rw [start]
  · rename_i s rest start
    rw [start]
    dsimp only
    split
    · rename_i value beyond found
      rw [found]
    · rename_i found
      rw [found]

theorem attributesIn_asciiLower (t : Text) :
    attributesIn (t.map Sym.asciiLower) = Attributes.folded (attributesIn t) := by
  have noName : ∀ s : Sym, (!isNameSym s.asciiLower) = !isNameSym s := by
    intro s
    rw [isNameSym_asciiLower]
  fun_induction attributesIn t with
  | case1 t start =>
    rw [attributesIn_eq, Text.dropWhile_asciiLower noName, start]
    rfl
  | case2 t s rest start name value beyond found ih =>
    rw [attributesIn_eq, Text.dropWhile_asciiLower noName, start]
    simp only [List.map_cons, Text.dropWhile_asciiLower isNameSym_asciiLower,
      Text.takeWhile_asciiLower isNameSym_asciiLower, value?_asciiLower, found, Option.map_some,
      foldedRest, ih]
    rw [← List.map_cons, Text.lower_asciiLower]
    rfl
  | case3 t s rest start name found ih =>
    rw [attributesIn_eq, Text.dropWhile_asciiLower noName, start]
    simp only [List.map_cons, Text.dropWhile_asciiLower isNameSym_asciiLower,
      Text.takeWhile_asciiLower isNameSym_asciiLower, value?_asciiLower, found, Option.map_none, ih]
    rw [← List.map_cons, Text.lower_asciiLower]
    rfl

theorem attributeText_asciiLower (tag : Text) :
    attributeText (tag.map Sym.asciiLower) = (attributeText tag).map Sym.asciiLower := by
  have bracket : ∀ s : Sym, s.asciiLower.isOneOf ['<', '>'] = s.isOneOf ['<', '>'] :=
    Sym.asciiLower_blind (by decide)
  have slash : ∀ s : Sym, s.asciiLower.isOneOf ['/'] = s.isOneOf ['/'] :=
    Sym.asciiLower_blind (by decide)
  have ink : ∀ s : Sym, (!s.asciiLower.isBlank) = !s.isBlank := by simp
  simp only [attributeText]
  rw [Text.trim_asciiLower bracket, Text.trimRight_asciiLower slash,
    Text.dropWhile_asciiLower Sym.isBlank_asciiLower, Text.dropWhile_asciiLower ink]

theorem ofTag_asciiLower (tag : Text) :
    Attributes.ofTag (tag.map Sym.asciiLower) = (Attributes.ofTag tag).folded := by
  rw [Attributes.ofTag, attributeText_asciiLower, attributesIn_asciiLower,
    Attributes.ofList_folded, Attributes.ofTag]

end Markup

namespace Block

def folded (b : Block) : Block := { b with attributes := b.attributes.folded }

theorem scriptType_folded (as : Attributes) : scriptType as.folded = scriptType as := by
  have separator : ∀ s : Sym, (s.asciiLower != .scalar ';') = (s != .scalar ';') :=
    fun s => s.bne_asciiLower (by decide)
  have typed : (as.folded.get? "type").getD [] =
      ((as.get? "type").getD []).map Sym.asciiLower := by
    rw [Attributes.get?_folded]
    cases as.get? "type" <;> rfl
  simp only [scriptType]
  rw [typed, Text.takeWhile_asciiLower separator, Text.trimBlank,
    Text.trim_asciiLower Sym.isBlank_asciiLower, Text.lower_asciiLower, Text.trimBlank]

@[simp]
theorem isExtractable_folded (b : Block) : b.folded.isExtractable = b.isExtractable := by
  simp only [isExtractable, folded, Attributes.has_folded, scriptType_folded]

end Block

def Block.verdict (b : Block) : List Text × Bool := (b.attributes.map Prod.fst, b.isExtractable)

theorem Block.verdict_folded (b : Block) : b.folded.verdict = b.verdict := by
  rw [verdict, isExtractable_folded, verdict]
  simp [folded, Attributes.folded]

def Mark.folded : Mark → Mark
  | .block b => .block b.folded
  | m => m

/-- The mark with the attributes that stand in the page. -/
def Mark.attributed (page : Text) : Mark → Mark
  | .block b => .block { b with attributes := .ofTag (page.slice b.start b.contentStart) }
  | m => m

namespace Marks

theorem bare_folded (ms : Marks) : (ms.map Mark.folded).map Mark.bare = ms.map Mark.bare := by
  rw [List.map_map]
  apply List.map_congr_left
  intro m _
  cases m <;> rfl

theorem blocks_folded (ms : Marks) : blocks (ms.map Mark.folded) = ms.blocks.map Block.folded := by
  simp only [blocks, List.filterMap_map, List.map_filterMap]
  congr 1
  funext m
  cases m <;> rfl

theorem verdicts_folded (ms : Marks) :
    (blocks (ms.map Mark.folded)).map Block.verdict = ms.blocks.map Block.verdict := by
  rw [blocks_folded, List.map_map]
  exact List.map_congr_left fun b _ => b.verdict_folded

end Marks

namespace Markup

/-- A scan is told by its page and by its marks less their attributes. -/
theorem scan_attributed (page : Text) :
    ((scan page).map Mark.bare).map (Mark.attributed page) = scan page := by
  rw [List.map_map, List.map_congr_left (g := id), List.map_id]
  intro m member
  cases m with
  | block b =>
    have attributes := block_attributes (Marks.mem_blocks.mpr member)
    simp only [Function.comp_apply, Mark.bare, Mark.attributed, Block.bare, ← attributes, id]
  | _ => rfl

theorem scan_asciiLower (page : Text) :
    scan (page.map Sym.asciiLower) = (scan page).map Mark.folded := by
  have rest : Text.Alike markChars (page.map Sym.asciiLower) page :=
    Text.alike_of_blind (Sym.asciiLower_blind (by decide)) page
  have low : Text.Alike tagChars (Text.lower (page.map Sym.asciiLower)) page.lower := by
    rw [Text.lower_asciiLower, Text.alike_iff_map]
  have alike : (Cursor.ofText (page.map Sym.asciiLower)).Alike (Cursor.ofText page) :=
    ⟨rfl, rest, low⟩
  have bare : (scan (page.map Sym.asciiLower)).map Mark.bare = (scan page).map Mark.bare :=
    alike.marks
  rw [← scan_attributed, bare, List.map_map]
  apply List.map_congr_left
  intro m member
  cases m with
  | block b =>
    have attributes := block_attributes (Marks.mem_blocks.mpr member)
    simp only [Function.comp_apply, Mark.bare, Mark.attributed, Block.bare, Mark.folded,
      Block.folded, Text.slice_asciiLower, ofTag_asciiLower, ← attributes]
  | _ => rfl

end Markup

end Unbundle
