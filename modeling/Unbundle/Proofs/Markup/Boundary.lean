import Unbundle.Proofs.Markup.Spelling

namespace Unbundle

theorem Attributes.head?_ofList (as : List (Text × Text)) : (ofList as).head? = as.head? := by
  induction as using List.reverseRecOn with
  | nil => rfl
  | append_singleton as a ih =>
    rw [ofList_concat, add]
    cases as with
    | nil => rfl
    | cons first rest =>
      -- What was found first stays in front, whether or not the last attribute is dropped.
      split
      · exact ih
      · rw [List.head?_append, ih]
        rfl

/-- Without its first attribute a list is read alike exactly if that one is repeated at once. -/
theorem Attributes.ofList_cons_eq_iff (a : Text × Text) (as : List (Text × Text)) :
    ofList (a :: as) = ofList as ↔ as.head? = some a := by
  constructor
  · intro same
    rw [← head?_ofList as, ← same, head?_ofList]
    rfl
  · intro next
    obtain ⟨rest, rfl⟩ := List.head?_eq_some_iff.mp next
    obtain ⟨name, value⟩ := a
    have known : has [(name, value)] name := (has_iff _ name).mpr (List.mem_singleton_self name)
    have twice : add (add [] name value) name value = add [] name value := if_pos known
    exact congrArg (rest.foldl fun found field => found.add field.1 field.2) twice

theorem Text.trimRight_past {p : Sym → Bool} {s : Sym} (kept : p s = false) (t rest : Text) :
    trimRight p (t ++ s :: rest) = t ++ s :: trimRight p rest := by
  have stops : (s :: t.reverse).dropWhile p = s :: t.reverse :=
    List.dropWhile_cons_of_neg (by simp [kept])
  rw [trimRight, trimRight, List.reverse_append, List.reverse_cons, List.append_assoc,
    List.singleton_append, List.dropWhile_append, stops]
  split
  · rename_i nothing
    rw [List.isEmpty_iff.mp nothing]
    simp
  · simp

namespace Markup

def joined (as : List Written) : Text := Text.joinWith " " (as.map Written.text)

def boundedTag (tag : Text) (boundary : Sym) (body : Text) : Text :=
  "<" ++ tag ++ (boundary :: body) ++ ">"

theorem joined_cons (a : Written) (rest : List Written) :
    joined (a :: rest) = a.text ++ listed rest := by
  induction rest generalizing a with
  | nil => simp [joined, listed, Text.joinWith, List.intercalate]
  | cons next rest ih =>
    have split : joined (a :: next :: rest) = a.text ++ .scalar ' ' :: joined (next :: rest) := by
      simp [joined, Text.joinWith, List.intercalate]
    have later : listed (next :: rest) = .scalar ' ' :: (next.text ++ listed rest) := rfl
    rw [split, ih, later]

theorem listed_eq_joined {as : List Written} (given : as ≠ []) :
    listed as = .scalar ' ' :: joined as := by
  obtain ⟨a, rest, rfl⟩ := List.exists_cons_of_ne_nil given
  rw [joined_cons]
  rfl

theorem attributesIn_past {s : Sym} (other : isNameSym s = false) (t : Text) :
    attributesIn (s :: t) = attributesIn t := by
  rw [attributesIn_eq, attributesIn_eq t, List.dropWhile_cons_of_pos (by rw [other]; rfl)]

theorem boundary_cases {c : Sym} (boundary : endsName c) (inner : c ≠ .scalar '>') :
    c = .scalar '/' ∨ c.isBlank ∧ c.isOneOf ['<', '>'] = false ∧ c.isOneOf ['/'] = false := by
  cases c with
  | raw low => cases boundary
  | scalar c =>
    have listed := List.contains_iff_mem.mp boundary
    simp only [List.mem_cons, List.not_mem_nil, or_false] at listed
    rcases listed with rfl | rfl | rfl | rfl | rfl | rfl | rfl
    · exact .inr (by decide)
    · exact .inr (by decide)
    · exact .inr (by decide)
    · exact .inr (by decide)
    · exact .inr (by decide)
    · exact .inl rfl
    · exact absurd rfl inner

section Blank

variable {tag : Text} (nonempty : tag ≠ []) (name : tag.FreeOf ['\x22', '\x27', '<', '>', '/'])
  {c : Sym} (boundary : endsName c) (inner : c ≠ .scalar '>') (blank : c ≠ .scalar '/')

include nonempty name boundary inner blank

theorem attributeText_blank (body : Text) : attributeText (boundedTag tag c body) =
    c :: Text.trimRight (·.isOneOf ['/'])
      (Text.trimRight (·.isOneOf ['<', '>']) (body ++ ">")) := by
  obtain rfl | ⟨blank, angle, slash⟩ := boundary_cases boundary inner
  · exact absurd rfl blank
  obtain ⟨s, tail, split⟩ := List.exists_cons_of_ne_nil nonempty
  have first := name s (split ▸ List.mem_cons_self)
  have head : ∀ t x, (tag ++ t).head? = some x → x = s := by
    intro t x here
    rw [split] at here
    exact (Option.some.inj here).symm
  have front : (boundedTag tag c body).dropWhile (·.isOneOf ['<', '>']) =
      tag ++ c :: (body ++ ">") := by
    rw [boundedTag, List.append_assoc, List.append_assoc, List.cons_append]
    refine Text.dropWhile_exact (by decide) fun x here => ?_
    rw [head _ x here]
    exact Sym.not_isOneOf_mono (by decide) first.2
  have blanks (t : Text) : (tag ++ t).dropWhile Sym.isBlank = tag ++ t :=
    Text.dropWhile_exact (t := []) (by simp) fun x here => by rw [head _ x here, first.1]
  rw [attributeText, Text.trim, front, Text.trimRight_past angle, Text.trimRight_past slash, blanks]
  refine Text.dropWhile_exact (fun x member => ?_) fun x here => ?_
  · rw [(name x member).1]
    rfl
  · cases here
    rw [blank]
    rfl

theorem ofTag_blank (body : Text) : Attributes.ofTag (boundedTag tag c body) =
    Attributes.ofTag (boundedTag tag (.scalar ' ') body) := by
  have unnamed : isNameSym c = false := by
    obtain rfl | ⟨blank, -, -⟩ := boundary_cases boundary inner
    · exact absurd rfl blank
    · rw [isNameSym, blank]
      rfl
  have spaced := attributeText_blank nonempty name (c := .scalar ' ') (by decide) (by decide)
    (by decide) body
  rw [Attributes.ofTag, attributeText_blank nonempty name boundary inner blank,
    attributesIn_past unnamed, Attributes.ofTag, spaced, attributesIn_past (by decide)]

end Blank

section Tag

variable {tag : Text} {as : List Written} (given : as ≠ [])

include given

theorem boundedTag_space : boundedTag tag (.scalar ' ') (joined as) = openingTag tag as := by
  rw [openingTag, listed_eq_joined given, boundedTag]

variable (proper : ProperTag tag as)

include proper

/-- Behind a slash the attributes begin at the first blank. -/
theorem ofTag_slash : Attributes.ofTag (boundedTag tag (.scalar '/') (joined as)) =
    .ofList (attributesIn ((joined as).dropWhile (!Sym.isBlank ·))) := by
  have inked : joined as ≠ [] := by
    obtain ⟨a, rest, rfl⟩ := List.exists_cons_of_ne_nil given
    have named := (proper.attributes a List.mem_cons_self).nonempty
    simp [joined_cons, Written.text, named]
  rw [Attributes.ofTag, boundedTag, attributeText_tag proper.nonempty proper.name,
    List.dropWhile_cons_of_pos (by decide)]
  -- The last symbol is one of the attributes', whatever the boundary.
  intro s ends
  refine proper.ends (s := s) ?_
  rw [List.append_cons, List.getLast?_append_of_ne_nil _ inked] at ends
  rw [listed_eq_joined given, List.append_cons, List.getLast?_append_of_ne_nil _ inked, ends]

end Tag

/-- A first attribute without blanks is lost behind a slash, and no other. -/
theorem ofTag_slash_behind {tag : Text} {a : Written} {rest : List Written}
    (proper : ProperTag tag (a :: rest)) (inked : a.text.FreeOf []) :
    Attributes.ofTag (boundedTag tag (.scalar '/') (joined (a :: rest))) =
      .ofList (rest.map fun a => (a.name.lower, a.value)) := by
  have later := (List.forall_mem_cons.mp proper.attributes).2
  have behind : (joined (a :: rest)).dropWhile (!Sym.isBlank ·) = listed rest := by
    rw [joined_cons]
    refine Text.dropWhile_exact (fun s member => ?_) ((follows_listed later).head (by decide))
    rw [(inked s member).1]
    rfl
  rw [ofTag_slash (List.cons_ne_nil a rest) proper, behind, attributesIn_listed later]

/-- A tag name may end at any blank: whatever stands behind it is read as behind a space, and a
    script with a source stays in place. Behind a slash only what follows the first blank is read,
    so an attribute without blanks is lost there, a source as well. -/
theorem ofTag_boundary {tag : Text} {as : List Written} (proper : ProperTag tag as)
    (given : as ≠ []) {c : Sym} (boundary : endsName c) (inner : c ≠ .scalar '>') :
    (c ≠ .scalar '/' →
      (∀ body, Attributes.ofTag (boundedTag tag c body) =
        Attributes.ofTag (boundedTag tag (.scalar ' ') body)) ∧
      ∀ page, ∀ b ∈ (scan page).blocks, b.kind = .script →
        page.slice b.start b.contentStart = boundedTag tag c (joined as) →
        (∃ a ∈ as, a.name.lower = "src") → ¬ b.isExtractable) ∧
    (c = .scalar '/' →
      Attributes.ofTag (boundedTag tag c (joined as)) =
        .ofList (attributesIn ((joined as).dropWhile (!Sym.isBlank ·))) ∧
      ∀ a rest, as = a :: rest → a.text.FreeOf [] →
        (Attributes.ofTag (boundedTag tag c (joined as)) =
            Attributes.ofTag (boundedTag tag (.scalar ' ') (joined as)) ↔
          (rest.head?.map fun next => (next.name.lower, next.value)) =
            some (a.name.lower, a.value)) ∧
        ∀ page, ∀ b ∈ (scan page).blocks, b.kind = .script →
          page.slice b.start b.contentStart = boundedTag tag c (joined as) →
          (b.isExtractable ↔ (∀ a ∈ rest, a.name.lower ≠ "src") ∧
            Text.lower (Text.trimBlank
              (((firstValue? rest "type").getD []).takeWhile (· != .scalar ';'))) ∈
                Block.classicTypes)) := by
  have space : boundedTag tag (.scalar ' ') (joined as) = openingTag tag as :=
    boundedTag_space given
  constructor
  · intro blank
    have same := ofTag_blank proper.nonempty proper.name boundary inner blank
    refine ⟨same, ?_⟩
    rintro page b member script tagged ⟨a, written, named⟩ moved
    have found (name : Text) : b.attributes.get? name = firstValue? as name := by
      rw [block_attributes member, tagged, same, space, ofTag_openingTag proper,
        Attributes.get?_ofList, get?_written]
    exact ((isExtractable_iff script found).mp moved).1 a written named
  · rintro rfl
    refine ⟨ofTag_slash given proper, ?_⟩
    rintro a rest rfl inked
    have lost := ofTag_slash_behind proper inked
    constructor
    · rw [lost, space, ofTag_openingTag proper, List.map_cons, eq_comm,
        Attributes.ofList_cons_eq_iff, List.head?_map]
    · intro page b member script tagged
      refine isExtractable_iff script fun name => ?_
      rw [block_attributes member, tagged, lost, Attributes.get?_ofList, get?_written]

def sourcedScript : List Written := [⟨"src", .double "a.js"⟩, ⟨"defer", .double ""⟩]

def sourcedTag (boundary : Sym) : Text := boundedTag "script" boundary (joined sourcedScript)

def sourcedPage (boundary : Sym) : Text := sourcedTag boundary ++ "b</script>"

theorem sourcedScript_proper : ProperTag "script" sourcedScript := by
  refine ⟨by decide, by decide, by decide +kernel, ?_⟩
  intro name value last
  cases last

theorem ofTag_boundary_of_sourcedPage : ProperTag "script" sourcedScript ∧ sourcedScript ≠ [] ∧
    endsName (.scalar '\n') ∧ Sym.scalar '\n' ≠ .scalar '>' ∧
    Attributes.ofTag (sourcedTag (.scalar '\n')) = Attributes.ofTag (sourcedTag (.scalar ' ')) ∧
    ∃ b ∈ (scan (sourcedPage (.scalar '\n'))).blocks, b.kind = .script ∧
      (sourcedPage (.scalar '\n')).slice b.start b.contentStart = sourcedTag (.scalar '\n') ∧
      ¬ b.isExtractable := by
  have given : sourcedScript ≠ [] := List.cons_ne_nil _ _
  obtain ⟨same, stays⟩ := (ofTag_boundary sourcedScript_proper given (c := .scalar '\n')
    (by decide) (by decide)).1 (by decide)
  have block : ∃ b ∈ (scan (sourcedPage (.scalar '\n'))).blocks, b.kind = .script ∧
      (sourcedPage (.scalar '\n')).slice b.start b.contentStart = sourcedTag (.scalar '\n') := by
    decide +kernel
  obtain ⟨b, member, script, tagged⟩ := block
  refine ⟨sourcedScript_proper, given, by decide, by decide, same _, b, member, script, tagged, ?_⟩
  exact stays _ b member script tagged ⟨_, List.mem_cons_self, by decide +kernel⟩

/-- Behind a slash the source is not seen, and the script is taken for an inline one. -/
theorem slash_hides_source : endsName (.scalar '/') ∧ Sym.scalar '/' ≠ .scalar '>' ∧
    ProperTag "script" sourcedScript ∧ (∃ a ∈ sourcedScript, a.name.lower = "src") ∧
    Attributes.ofTag (sourcedTag (.scalar '/')) ≠ Attributes.ofTag (sourcedTag (.scalar ' ')) ∧
    ∃ b ∈ (scan (sourcedPage (.scalar '/'))).blocks, b.kind = .script ∧
      (sourcedPage (.scalar '/')).slice b.start b.contentStart = sourcedTag (.scalar '/') ∧
      b.isExtractable := by
  refine ⟨by decide, by decide, sourcedScript_proper, ?_, ?_, ?_⟩
  all_goals decide +kernel

end Markup

end Unbundle
