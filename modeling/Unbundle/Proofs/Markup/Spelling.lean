import Unbundle.Proofs.Markup.Letters
import Unbundle.Proofs.Text.Slice

namespace Unbundle

namespace Text

/-- Neither blanks nor any of these symbols stand in the text. -/
def FreeOf (cs : List Char) (t : Text) : Prop :=
  ∀ s ∈ t, s.isBlank = false ∧ s.isOneOf cs = false

instance (cs : List Char) (t : Text) : Decidable (t.FreeOf cs) :=
  inferInstanceAs (Decidable (∀ s ∈ t, s.isBlank = false ∧ s.isOneOf cs = false))

end Text

namespace Attributes

theorem get?_singleton (name value other : Text) :
    get? [(name, value)] other = if other = name then some value else none := by
  rw [get?, List.lookup_cons, List.lookup_nil]
  by_cases same : other = name
  · simp [same]
  · simp [same, beq_false_of_ne same]

theorem get?_append (as bs : Attributes) (name : Text) :
    (as ++ bs).get? name = (as.get? name).or (bs.get? name) :=
  List.lookup_append

theorem get?_add (as : Attributes) (name value other : Text) :
    (as.add name value).get? other = (as.get? other).or (get? [(name, value)] other) := by
  unfold add
  split
  · rename_i present
    rw [get?_singleton]
    by_cases same : other = name
    · obtain ⟨found, here⟩ := Option.isSome_iff_exists.mp present
      rw [same, here]
      rfl
    · rw [if_neg same, Option.or_none]
  · exact get?_append as _ other

theorem has_iff (as : Attributes) (name : Text) : as.has name ↔ name ∈ as.map Prod.fst := by
  rw [has, get?, List.lookup_isSome_iff]
  simp

theorem ofList_concat (as : List (Text × Text)) (a : Text × Text) :
    ofList (as ++ [a]) = (ofList as).add a.1 a.2 := by
  rw [ofList, List.foldl_append]
  rfl

theorem get?_ofList (as : List (Text × Text)) (name : Text) :
    (ofList as).get? name = get? as name := by
  induction as using List.reverseRecOn with
  | nil => rfl
  | append_singleton as a ih => rw [ofList_concat, get?_add, ih, ← get?_append]

theorem names_ofList (as : List (Text × Text)) :
    (ofList as).map Prod.fst = (as.map Prod.fst).eraseDups := by
  induction as using List.reverseRecOn with
  | nil => rfl
  | append_singleton as a ih =>
    have present : (ofList as).has a.1 ↔ a.1 ∈ as.map Prod.fst := by
      rw [has_iff, ih, List.mem_eraseDups]
    rw [ofList_concat, List.map_append, List.eraseDups_append, ← ih, add]
    by_cases known : a.1 ∈ as.map Prod.fst
    · rw [if_pos (present.mpr known)]
      simp [List.removeAll, known]
    · rw [if_neg (mt present.mp known)]
      simp [List.removeAll, known, List.eraseDups_cons]

end Attributes

namespace Markup

/-- How the value of an attribute is written behind its name. -/
inductive Spelling
  | bare
  | double (value : Text)
  | single (value : Text)
  | unquoted (value : Text)

namespace Spelling

def text : Spelling → Text
  | .bare => []
  | .double value => "=\"" ++ value ++ "\""
  | .single value => "='" ++ value ++ "'"
  | .unquoted value => "=" ++ value

def value : Spelling → Text
  | .bare => []
  | .double value => value
  | .single value => value
  | .unquoted value => value

def Proper : Spelling → Prop
  | .bare => True
  | .double value => .scalar '\x22' ∉ value
  | .single value => .scalar '\x27' ∉ value
  | .unquoted value => value ≠ [] ∧ value.FreeOf ['\x22', '\x27', '=', '<', '>', '\x60']

instance : (spelling : Spelling) → Decidable spelling.Proper
  | .bare => inferInstanceAs (Decidable True)
  | .double value => inferInstanceAs (Decidable (.scalar '\x22' ∉ value))
  | .single value => inferInstanceAs (Decidable (.scalar '\x27' ∉ value))
  | .unquoted value => inferInstanceAs (Decidable
      (value ≠ [] ∧ value.FreeOf ['\x22', '\x27', '=', '<', '>', '\x60']))

end Spelling

/-- An attribute as it is written. -/
structure Written where
  name : Text
  spelling : Spelling

namespace Written

def text (a : Written) : Text := a.name ++ a.spelling.text

def value (a : Written) : Text := a.spelling.value

structure Proper (a : Written) : Prop where
  nonempty : a.name ≠ []
  name : a.name.FreeOf ['\x22', '\x27', '<', '>', '/', '=']
  spelling : a.spelling.Proper

instance (a : Written) : Decidable a.Proper :=
  decidable_of_iff
    (a.name ≠ [] ∧ a.name.FreeOf ['\x22', '\x27', '<', '>', '/', '='] ∧ a.spelling.Proper)
    ⟨fun ⟨nonempty, name, spelling⟩ => ⟨nonempty, name, spelling⟩,
      fun proper => ⟨proper.nonempty, proper.name, proper.spelling⟩⟩

end Written

def listed (as : List Written) : Text := as.flatMap fun a => " " ++ a.text

def openingTag (tag : Text) (as : List Written) : Text := "<" ++ tag ++ listed as ++ ">"

/-- A tag that can be told apart from its attributes, and whose last slash is no part of a value. -/
structure ProperTag (tag : Text) (as : List Written) : Prop where
  nonempty : tag ≠ []
  name : tag.FreeOf ['\x22', '\x27', '<', '>', '/']
  attributes : ∀ a ∈ as, a.Proper
  last : ∀ name value, as.getLast? = some ⟨name, .unquoted value⟩ →
    value.getLast? ≠ some (.scalar '/')

theorem isNameSym_of_free {cs : List Char} {t : Text} (free : t.FreeOf cs)
    (subset : ['\x22', '\x27', '>', '/', '='] ⊆ cs) : ∀ s ∈ t, isNameSym s := by
  intro s member
  obtain ⟨ink, other⟩ := free s member
  rw [isNameSym, ink, Sym.not_isOneOf_mono subset other]
  rfl

theorem isBareSym_of_free {t : Text} (free : t.FreeOf ['\x22', '\x27', '=', '<', '>', '\x60']) :
    ∀ s ∈ t, isBareSym s := by
  intro s member
  obtain ⟨ink, other⟩ := free s member
  rw [isBareSym, ink, other]
  rfl

theorem quotedValue?_exact {quote : Sym} {value : Text} (inner : quote ∉ value) (rest : Text) :
    quotedValue? quote (value ++ quote :: rest) = some (value, rest) := by
  induction value with
  | nil => simp [quotedValue?]
  | cons s value ih =>
    obtain ⟨other, later⟩ := not_or.mp (mt List.mem_cons.mpr inner)
    rw [List.cons_append, quotedValue?, if_neg (Ne.symm other), ih later]
    rfl

def Follows (rest : Text) : Prop :=
  rest = [] ∨ ∃ s t, rest = .scalar ' ' :: s :: t ∧ isNameSym s

theorem follows_listed {as : List Written} (proper : ∀ a ∈ as, a.Proper) : Follows (listed as) := by
  cases as with
  | nil => exact .inl rfl
  | cons a as =>
    right
    have here := proper a List.mem_cons_self
    obtain ⟨s, t, split⟩ := List.exists_cons_of_ne_nil here.nonempty
    refine ⟨s, t ++ a.spelling.text ++ listed as, ?_, ?_⟩
    · simp [listed, Written.text, split]
    · exact isNameSym_of_free here.name (by decide) s (split ▸ List.mem_cons_self)

theorem Follows.head {rest : Text} (follows : Follows rest) {p : Sym → Bool}
    (space : p (.scalar ' ') = false) : ∀ s, rest.head? = some s → p s = false := by
  rintro s first
  rcases follows with rfl | ⟨s', t, rfl, -⟩
  · cases first
  · cases first
    exact space

theorem Follows.no_value {rest : Text} (follows : Follows rest) : value? rest = none := by
  rw [value?_eq]
  rcases follows with rfl | ⟨s, t, rfl, name⟩
  · rfl
  · have ink : s.isBlank = false := by
      rw [isNameSym, Bool.and_eq_true, Bool.not_eq_true'] at name
      exact name.1
    have other : s ≠ .scalar '=' := by
      rintro rfl
      cases name
    rw [List.dropWhile_cons_of_pos (by decide), List.dropWhile_cons_of_neg (by simp [ink])]
    exact if_neg other

theorem value?_spelled {spelling : Spelling} (proper : spelling.Proper) {rest : Text}
    (follows : Follows rest) :
    spelling = .bare ∧ value? (spelling.text ++ rest) = none ∨
      value? (spelling.text ++ rest) = some (spelling.value, rest) := by
  cases spelling with
  | bare => exact .inl ⟨rfl, follows.no_value⟩
  | double value =>
    right
    have inner := quotedValue?_exact proper rest
    rw [Spelling.text, List.append_assoc, List.append_assoc]
    exact inner
  | single value =>
    right
    have inner := quotedValue?_exact proper rest
    rw [Spelling.text, List.append_assoc, List.append_assoc]
    exact inner
  | unquoted value =>
    right
    have bare := isBareSym_of_free proper.2
    obtain ⟨s, tail, split⟩ := List.exists_cons_of_ne_nil proper.1
    have member : s ∈ value := split ▸ List.mem_cons_self
    have ink : s.isBlank = false := (proper.2 s member).1
    have unquoted : ¬ (s = .scalar '\x22' ∨ s = .scalar '\x27') := by
      rintro (rfl | rfl)
      all_goals cases (proper.2 _ member).2
    have ends := follows.head (p := isBareSym) (by decide)
    have inside : ∀ x ∈ tail, isBareSym x := fun x later =>
      bare x (split ▸ List.mem_cons_of_mem s later)
    have found : valueFrom? s (tail ++ rest) = some (s :: tail, rest) := by
      rw [valueFrom?, if_neg unquoted, if_pos (bare s member), Text.takeWhile_exact inside ends,
        Text.dropWhile_exact inside ends]
    have sign : (("=" : Text) ++ value ++ rest).dropWhile Sym.isBlank =
        .scalar '=' :: s :: (tail ++ rest) := by
      rw [split]
      exact List.dropWhile_cons_of_neg (by decide)
    have start : (s :: (tail ++ rest)).dropWhile Sym.isBlank = s :: (tail ++ rest) :=
      List.dropWhile_cons_of_neg (by simp [ink])
    rw [Spelling.text, Spelling.value, value?_eq, sign]
    simp only [if_true, start]
    rw [found, split]

theorem attributesIn_written {a : Written} (proper : a.Proper) {rest : Text}
    (follows : Follows rest) :
    attributesIn (" " ++ a.text ++ rest) = (a.name.lower, a.value) :: attributesIn rest := by
  obtain ⟨s, tail, split⟩ := List.exists_cons_of_ne_nil proper.nonempty
  have named := isNameSym_of_free proper.name (by decide)
  have inside : ∀ x ∈ tail, isNameSym x := fun x later =>
    named x (split ▸ List.mem_cons_of_mem s later)
  have ends : ∀ x, (a.spelling.text ++ rest).head? = some x → isNameSym x = false := by
    have space := follows.head (p := isNameSym) (by decide)
    intro x first
    cases spelled : a.spelling with
    | bare => exact space x (by simpa [spelled, Spelling.text] using first)
    | _ =>
      rw [spelled] at first
      cases first
      rfl
  have start : (" " ++ a.text ++ rest).dropWhile (!isNameSym ·) =
      s :: (tail ++ (a.spelling.text ++ rest)) := by
    have text : (" " : Text) ++ a.text ++ rest =
        .scalar ' ' :: s :: (tail ++ (a.spelling.text ++ rest)) := by
      simp [Written.text, split]
    rw [text, List.dropWhile_cons_of_pos (by decide),
      List.dropWhile_cons_of_neg (by simp [named s (split ▸ List.mem_cons_self)])]
  rw [attributesIn_eq, start]
  simp only [Text.takeWhile_exact inside ends, Text.dropWhile_exact inside ends, ← split]
  rcases value?_spelled proper.spelling follows with ⟨bare, none⟩ | found
  · rw [none, bare]
    simp only [Written.value, bare, Spelling.value, Spelling.text, List.nil_append]
  · rw [found]
    rfl

theorem attributesIn_listed {as : List Written} (proper : ∀ a ∈ as, a.Proper) :
    attributesIn (listed as) = as.map fun a => (a.name.lower, a.value) := by
  induction as with
  | nil =>
    rw [attributesIn_eq]
    rfl
  | cons a as ih =>
    obtain ⟨here, later⟩ := List.forall_mem_cons.mp proper
    rw [listed, List.flatMap_cons, ← listed, attributesIn_written here (follows_listed later),
      ih later, List.map_cons]

theorem Written.last {a : Written} (proper : a.Proper)
    (slash : ∀ value, a.spelling = .unquoted value → value.getLast? ≠ some (.scalar '/')) {s : Sym}
    (ends : a.text.getLast? = some s) : s.isOneOf ['<', '>', '/'] = false := by
  unfold Written.text at ends
  cases spelled : a.spelling with
  | bare =>
    rw [spelled, Spelling.text, List.append_nil] at ends
    exact Sym.not_isOneOf_mono (by decide) (proper.name s (List.mem_of_getLast? ends)).2
  | double value =>
    rw [spelled, Spelling.text, ← List.append_assoc, List.getLast?_append] at ends
    cases ends
    rfl
  | single value =>
    rw [spelled, Spelling.text, ← List.append_assoc, List.getLast?_append] at ends
    cases ends
    rfl
  | unquoted value =>
    have free := proper.spelling
    rw [spelled] at free
    rw [spelled, Spelling.text, ← List.append_assoc,
      List.getLast?_append_of_ne_nil _ free.1] at ends
    have angle : s.isOneOf ['<', '>'] = false :=
      Sym.not_isOneOf_mono (by decide) (free.2 s (List.mem_of_getLast? ends)).2
    have other : s ≠ .scalar '/' := by
      rintro rfl
      exact slash value spelled ends
    cases s with
    | raw low => rfl
    | scalar c => simp_all [Sym.isOneOf]

theorem attributeText_tag {tag body : Text} (nonempty : tag ≠ [])
    (name : tag.FreeOf ['\x22', '\x27', '<', '>', '/'])
    (ends : ∀ s, (tag ++ body).getLast? = some s → s.isOneOf ['<', '>', '/'] = false) :
    attributeText ("<" ++ tag ++ body ++ ">") = body.dropWhile (!Sym.isBlank ·) := by
  obtain ⟨s, tail, split⟩ := List.exists_cons_of_ne_nil nonempty
  have first := name s (split ▸ List.mem_cons_self)
  have head : ∀ t x, (tag ++ t).head? = some x → x = s := by
    intro t x here
    rw [split] at here
    exact (Option.some.inj here).symm
  have brackets : Text.trim (·.isOneOf ['<', '>']) ("<" ++ tag ++ body ++ ">") = tag ++ body := by
    rw [Text.trim, List.append_assoc, List.append_assoc, Text.dropWhile_exact (by decide),
      ← List.append_assoc]
    · refine Text.trimRight_exact (by decide) fun x last => ?_
      exact Sym.not_isOneOf_mono (by decide) (ends x last)
    · intro x here
      rw [head _ x here]
      exact Sym.not_isOneOf_mono (by decide) first.2
  have slashes : Text.trimRight (·.isOneOf ['/']) (tag ++ body) = tag ++ body := by
    have whole : Text.trimRight (·.isOneOf ['/']) (tag ++ body ++ []) = tag ++ body :=
      Text.trimRight_exact (by simp) fun x last =>
        Sym.not_isOneOf_mono (by decide) (ends x last)
    rwa [List.append_nil] at whole
  have blanks : (tag ++ body).dropWhile Sym.isBlank = tag ++ body :=
    Text.dropWhile_exact (t := []) (by simp) fun x here => by rw [head _ x here, first.1]
  rw [attributeText, brackets, slashes, blanks]
  refine List.dropWhile_append_of_pos fun x member => ?_
  rw [(name x member).1]
  rfl

section Tag

variable {tag : Text} {as : List Written} (proper : ProperTag tag as)

include proper

theorem ProperTag.ends {s : Sym} (ends : (tag ++ listed as).getLast? = some s) :
    s.isOneOf ['<', '>', '/'] = false := by
  rcases List.eq_nil_or_concat as with rfl | ⟨init, a, rfl⟩
  · rw [listed, List.flatMap_nil, List.append_nil] at ends
    exact Sym.not_isOneOf_mono (by decide) (proper.name s (List.mem_of_getLast? ends)).2
  · have here := proper.attributes a (by simp)
    have text : a.text ≠ [] := by simp [Written.text, here.nonempty]
    rw [listed, List.concat_eq_append, List.flatMap_append, List.flatMap_singleton,
      ← List.append_assoc, ← List.append_assoc, List.getLast?_append_of_ne_nil _ text] at ends
    refine Written.last here ?_ ends
    intro value spelled
    refine proper.last a.name value ?_
    rw [List.concat_eq_append, List.getLast?_concat, ← spelled]

theorem attributeText_openingTag : attributeText (openingTag tag as) = listed as := by
  rw [openingTag, attributeText_tag proper.nonempty proper.name fun s => proper.ends]
  exact Text.dropWhile_exact (t := []) (by simp)
    ((follows_listed proper.attributes).head (by decide))

theorem ofTag_openingTag :
    Attributes.ofTag (openingTag tag as) = .ofList (as.map fun a => (a.name.lower, a.value)) := by
  rw [Attributes.ofTag, attributeText_openingTag proper, attributesIn_listed proper.attributes]

end Tag

def firstValue? (as : List Written) (name : Text) : Option Text :=
  (as.find? fun a => a.name.lower = name).map Written.value

theorem get?_written (as : List Written) (name : Text) :
    Attributes.get? (as.map fun a => (a.name.lower, a.value)) name = firstValue? as name := by
  induction as with
  | nil => rfl
  | cons a as ih =>
    rw [List.map_cons, ← List.singleton_append, Attributes.get?_append, ih,
      Attributes.get?_singleton, firstValue?, firstValue?, List.find?_cons]
    by_cases same : a.name.lower = name
    · simp [same]
    · simp [same, Ne.symm same]

theorem firstValue?_isSome_iff (as : List Written) (name : Text) :
    (firstValue? as name).isSome ↔ ∃ a ∈ as, a.name.lower = name := by
  rw [firstValue?, Option.isSome_map, List.find?_isSome]
  simp

theorem isExtractable_iff {b : Block} {as : List Written} (script : b.kind = .script)
    (found : ∀ name, b.attributes.get? name = firstValue? as name) :
    b.isExtractable ↔ (∀ a ∈ as, a.name.lower ≠ "src") ∧
      Text.lower (Text.trimBlank
        (((firstValue? as "type").getD []).takeWhile (· != .scalar ';'))) ∈
          Block.classicTypes := by
  have source : b.attributes.has "src" = false ↔ ∀ a ∈ as, a.name.lower ≠ "src" := by
    rw [Attributes.has, found, Bool.eq_false_iff, Ne, firstValue?_isSome_iff]
    simp
  rw [Block.isExtractable, script, Bool.and_eq_true, Bool.not_eq_true', source, Block.scriptType,
    found, List.contains_iff_mem]

/-- Reading an opening tag gives back the attributes it was written with: names in lower case, each
    where and as it first occurs. So these decide whether a script can be moved out. -/
theorem ofTag_undoes_writing {tag : Text} {as : List Written} (proper : ProperTag tag as) :
    (Attributes.ofTag (openingTag tag as)).map Prod.fst =
      (as.map fun a => a.name.lower).eraseDups ∧
    (∀ name, (Attributes.ofTag (openingTag tag as)).get? name = firstValue? as name) ∧
    ∀ page, ∀ b ∈ (scan page).blocks, b.kind = .script →
      page.slice b.start b.contentStart = openingTag tag as →
      (b.isExtractable ↔ (∀ a ∈ as, a.name.lower ≠ "src") ∧
        Text.lower (Text.trimBlank
          (((firstValue? as "type").getD []).takeWhile (· != .scalar ';'))) ∈
            Block.classicTypes) := by
  have found : ∀ name, (Attributes.ofTag (openingTag tag as)).get? name = firstValue? as name := by
    intro name
    rw [ofTag_openingTag proper, Attributes.get?_ofList, get?_written]
  refine ⟨?_, found, ?_⟩
  · rw [ofTag_openingTag proper, Attributes.names_ofList, List.map_map]
    rfl
  · intro page b member script tagged
    exact isExtractable_iff script fun name => by rw [block_attributes member, tagged, found]

def writtenScript : List Written :=
  [⟨"Async", .bare⟩, ⟨"TYPE", .double " Text/JavaScript;v='>'"⟩, ⟨"x", .unquoted "a/b"⟩,
    ⟨"type", .single "module"⟩, ⟨"y", .double ""⟩]

def writtenPage : Text := openingTag "Script" writtenScript ++ "a</script>"

theorem writtenScript_proper : ProperTag "Script" writtenScript := by
  refine ⟨by decide, by decide, by decide +kernel, ?_⟩
  intro name value last
  cases last

theorem ofTag_undoes_writing_of_writtenScript : ProperTag "Script" writtenScript ∧
    (Attributes.ofTag (openingTag "Script" writtenScript)).map Prod.fst =
      ["async", "type", "x", "y"] ∧
    (Attributes.ofTag (openingTag "Script" writtenScript)).get? "type" =
      some " Text/JavaScript;v='>'" ∧
    ∃ b ∈ (scan writtenPage).blocks, b.kind = .script ∧
      writtenPage.slice b.start b.contentStart = openingTag "Script" writtenScript ∧
      b.isExtractable := by
  obtain ⟨names, values, verdict⟩ := ofTag_undoes_writing writtenScript_proper
  have block : ∃ b ∈ (scan writtenPage).blocks, b.kind = .script ∧
      writtenPage.slice b.start b.contentStart = openingTag "Script" writtenScript := by
    decide +kernel
  obtain ⟨b, member, script, tagged⟩ := block
  refine ⟨writtenScript_proper, ?_, ?_, b, member, script, tagged, ?_⟩
  · rw [names]
    decide +kernel
  · rw [values]
    decide +kernel
  · rw [verdict _ b member script tagged]
    decide +kernel

end Markup

end Unbundle
