import Unbundle.Proofs.Markup.Origin
import Unbundle.Proofs.Markup.Piece

namespace Unbundle

namespace Markup

open Cursor (within)

/-- A comment, a declaration or an opening tag of a style or script begins the text. -/
def Begins (t : Text) : Prop :=
  ("<!" : Text) <+: t ∨ ("<?" : Text) <+: t ∨ ∃ kind, OpensAt t kind 0

theorem begins_iff {t : Text} :
    Begins t ↔ ("<!" : Text) <+: t ∨ ("<?" : Text) <+: t ∨
      OpensAt t .style 0 ∨ OpensAt t .script 0 := by
  refine or_congr_right (or_congr_right ⟨?_, ?_⟩)
  · rintro ⟨_ | _, opens⟩
    · exact .inl opens
    · exact .inr opens
  · rintro (style | script)
    · exact ⟨.style, style⟩
    · exact ⟨.script, script⟩

instance (t : Text) : Decidable (Begins t) := decidable_of_iff _ begins_iff.symm

theorem closes_folded_iff (kind : Kind) (t : Text) :
    closes kind.name (t.map Sym.asciiLower) ↔ ClosesAt t kind 0 := by
  have begins := t.asciiLower_alike.isPrefixOf "</" (by decide)
  rw [closes, Bool.and_eq_true, begins, namesTag_folded_iff,
    List.isPrefixOf_iff_prefix]
  rfl

theorem startsWith_folded_iff {needle : Text} (seen : ∀ x ∈ needle, x.isOneOf punctuation)
    (pos : Nat) (t : Text) : (folded pos t).startsWith needle ↔ needle <+: t := by
  rw [Cursor.startsWith, folded, t.asciiLower_alike.isPrefixOf needle seen,
    List.isPrefixOf_iff_prefix]

theorem blockKind?_folded {t : Text} {kind : Kind} {pos : Nat}
    (found : (folded pos t).blockKind? = some kind) : NameAt t kind.name 1 := by
  unfold Cursor.blockKind? at found
  split at found
  · rename_i style
    cases found
    exact (namesTag_folded_iff _ t 1).mp style
  · split at found
    · rename_i script
      cases found
      exact (namesTag_folded_iff _ t 1).mp script
    · cases found

theorem reach_of_not_begins {t : Text} (opened : t.head? = some (.scalar '<'))
    (plain : ¬ Begins t) : reach t = some 1 := by
  have bang : ¬ (folded 0 t).startsWith "<!" := by
    rw [startsWith_folded_iff (by decide)]
    exact fun begins => plain (.inl begins)
  have query : ¬ (folded 0 t).startsWith "<?" := by
    rw [startsWith_folded_iff (by decide)]
    exact fun begins => plain (.inr (.inl begins))
  have comment : ¬ (folded 0 t).startsWith "<!--" := by
    rw [startsWith_folded_iff (by decide)] at bang ⊢
    exact fun begins => bang ((by decide : ("<!" : Text) <+: "<!--").trans begins)
  have block : (folded 0 t).blockKind? = none := by
    rw [Option.eq_none_iff_forall_ne_some]
    intro kind found
    rw [List.head?_eq_getElem?] at opened
    exact plain (.inr (.inr ⟨kind, opened, blockKind?_folded found⟩))
  unfold reach Cursor.readTag
  rw [if_neg comment, if_neg (mt Bool.or_eq_true_iff.mp (not_or_intro bang query)), block]
  rfl

/-- A scan that stands at the first text gets to the second, which ends it. -/
inductive Arrives : Text → Text → Prop
  | here (t : Text) : Arrives t t
  | skip {s : Sym} {t r : Text} (other : s ≠ .scalar '<') (later : Arrives t r) : Arrives (s :: t) r
  | read {t r : Text} {n : Nat} (opened : t.head? = some (.scalar '<')) (read : reach t = some n)
      (later : Arrives (t.drop n) r) : Arrives t r

namespace Arrives

theorem trans {t r u : Text} (first : Arrives t r) (second : Arrives r u) : Arrives t u := by
  induction first with
  | here t => exact second
  | skip other _ ih => exact .skip other (ih second)
  | read opened read _ ih => exact .read opened read (ih second)

theorem passes {t : Text} (quiet : .scalar '<' ∉ t) (rest : Text) : Arrives (t ++ rest) rest := by
  induction t with
  | nil => exact .here rest
  | cons s t ih =>
    rw [List.mem_cons, not_or] at quiet
    exact .skip (Ne.symm quiet.1) (ih quiet.2)

theorem whole {t rest : Text} (opened : t.head? = some (.scalar '<'))
    (read : reach (t ++ rest) = some t.length) : Arrives (t ++ rest) rest := by
  refine .read (by rw [List.head?_append, opened]; rfl) read ?_
  rw [List.drop_left]
  exact .here rest

end Arrives

section Page

variable {page : Text}

theorem marks_next (c : Cursor) :
    c.marks = (c.next?.map fun next => next.1.toList ++ next.2.marks).getD [] := by
  rw [Cursor.marks]
  unfold Cursor.next?
  split
  · rename_i none
    rw [none]
    rfl
  · rename_i tag found
    rw [found, Option.bind_some]
    cases tag.readTag with
    | none => rfl
    | some read => rfl

theorem drop_of_getElem? {pos : Nat} {s : Sym} (stands : page[pos]? = some s) :
    page.drop pos = s :: page.drop (pos + 1) := by
  obtain ⟨short, rfl⟩ := List.getElem?_eq_some_iff.mp stands
  exact List.drop_eq_getElem_cons short

theorem marks_skip {pos : Nat} {s : Sym} (stands : page[pos]? = some s) (other : s ≠ .scalar '<') :
    (within page pos).marks = (within page (pos + 1)).marks := by
  have toTag : (within page pos).toTag? = (within page (pos + 1)).toTag? := by
    unfold Cursor.toTag?
    change (List.findIdx? _ (page.drop pos)).map _ = (List.findIdx? _ (page.drop (pos + 1))).map _
    rw [drop_of_getElem? stands, List.findIdx?_cons, if_neg (by simpa using other), Option.map_map]
    congr 1
    funext n
    simp [Nat.add_right_comm, Nat.add_assoc]
  rw [marks_next, marks_next (within page (pos + 1)), Cursor.next?, Cursor.next?, toTag]

theorem toTag_here {pos : Nat} (stands : page[pos]? = some (.scalar '<')) :
    (within page pos).toTag? = some (within page pos) := by
  unfold Cursor.toTag?
  change (List.findIdx? _ (page.drop pos)).map _ = _
  rw [drop_of_getElem? stands]
  rfl

theorem marks_read {pos n : Nat} {mark : Option Mark} (stands : page[pos]? = some (.scalar '<'))
    (read : (within page pos).readTag = some (mark, n)) :
    (within page pos).marks = mark.toList ++ (within page (pos + n + 1)).marks := by
  rw [marks_next, Cursor.next?, toTag_here stands, Option.bind_some, read]
  simp [Nat.add_assoc]

theorem marks_from (pos : Nat) : ∀ m ∈ (within page pos).marks, m.From pos := by
  refine marks_induction (motive := fun pos ms => ∀ m ∈ ms, m.From pos) ?_ ?_ ?_ pos
  · simp
  · simp
  · intro pos start mark stop ms first reading later m member
    have ahead := (reading.advances first.1.2).1
    rcases List.mem_append.mp member with here | behind
    · exact (reading.placed first.1.2 (Option.mem_toList.mp here)).2.1.mono first.1.1
    · exact (later m behind).mono (Nat.le_trans first.1.1 (Nat.le_of_lt ahead))

theorem within_alike (plain : Sym.dottedI ∉ page) (pos : Nat) :
    (within page pos).Alike (folded pos (page.drop pos)) := by
  refine ⟨rfl, Text.alike_iff_map.mpr rfl, ?_⟩
  have low := (Text.lower_alike_asciiLower plain).drop pos
  rwa [← List.map_drop] at low

theorem read_folded (plain : Sym.dottedI ∉ page) {pos n : Nat} {mark : Option Mark}
    (read : (within page pos).readTag = some (mark, n)) :
    ∃ mark', (folded pos (page.drop pos)).readTag = some (mark', n) ∧
      mark'.map Mark.bare = mark.map Mark.bare := by
  have same := (within_alike plain pos).readTag
  rw [read, Option.map_some, eq_comm, Option.map_eq_some_iff] at same
  obtain ⟨⟨mark', n'⟩, folded, equal⟩ := same
  simp only [Prod.mk.injEq] at equal
  obtain ⟨bare, rfl⟩ := equal
  exact ⟨mark', folded, bare⟩

theorem read_of_reach (plain : Sym.dottedI ∉ page) {pos n : Nat}
    (reached : reach (page.drop pos) = some n) :
    ∃ mark k, (within page pos).readTag = some (mark, k) ∧ n = k + 1 := by
  rw [← readTag_reach pos, Option.map_eq_some_iff] at reached
  obtain ⟨⟨mark, k⟩, read, rfl⟩ := reached
  have same := (within_alike plain pos).readTag
  rw [read, Option.map_some, Option.map_eq_some_iff] at same
  obtain ⟨⟨mark', k'⟩, read', equal⟩ := same
  simp only [Prod.mk.injEq] at equal
  obtain ⟨-, rfl⟩ := equal
  exact ⟨mark', k', read', rfl⟩

theorem reach_of_read (plain : Sym.dottedI ∉ page) {pos n : Nat} {mark : Option Mark}
    (read : (within page pos).readTag = some (mark, n)) : reach (page.drop pos) = some (n + 1) := by
  obtain ⟨mark', read', -⟩ := read_folded plain read
  rw [← readTag_reach pos, read']
  rfl

theorem marks_halt {pos : Nat} (stands : page[pos]? = some (.scalar '<'))
    (halts : (within page pos).readTag = none) : (within page pos).marks = [] := by
  rw [marks_next, Cursor.next?, toTag_here stands, Option.bind_some, halts]
  rfl

theorem head?_drop_eq {pos : Nat} {s : Sym} {t : Text} (here : s :: t = page.drop pos) :
    page[pos]? = some s ∧ t = page.drop (pos + 1) := by
  have stands : page[pos]? = some s := by
    rw [← List.head?_drop, ← here]
    rfl
  rw [drop_of_getElem? stands] at here
  exact ⟨stands, (List.cons.inj here).2⟩

theorem Arrives.marks (plain : Sym.dottedI ∉ page) {t r : Text} (arrives : Arrives t r) (pos : Nat)
    (here : t = page.drop pos) :
    ∃ ms stop, pos ≤ stop ∧ r = page.drop stop ∧
      (within page pos).marks = ms ++ (within page stop).marks ∧ ∀ m ∈ ms, m.UpTo stop := by
  induction arrives generalizing pos with
  | here t => exact ⟨[], pos, Nat.le_refl pos, here, rfl, by simp⟩
  | skip other _ ih =>
    obtain ⟨stands, rest⟩ := head?_drop_eq here
    obtain ⟨ms, stop, later, ends, marks, upTo⟩ := ih (pos + 1) rest
    exact ⟨ms, stop, by omega, ends, (marks_skip stands other).trans marks, upTo⟩
  | @read t r n opened reached _ ih =>
    subst here
    rw [List.head?_drop] at opened
    obtain ⟨mark, k, read, rfl⟩ := read_of_reach plain reached
    obtain ⟨ms, stop, later, ends, marks, upTo⟩ :=
      ih (pos + k + 1) (by rw [List.drop_drop, Nat.add_assoc])
    refine ⟨mark.toList ++ ms, stop, by omega, ends, ?_, ?_⟩
    · rw [marks_read opened read, marks, List.append_assoc]
    · intro m member
      rcases List.mem_append.mp member with here | behind
      · exact ((readTag_reading read).placed opened (Option.mem_toList.mp here)).2.2.mono later
      · exact upTo m behind

theorem Arrives.scan (plain : Sym.dottedI ∉ page) {pos : Nat}
    (arrives : Arrives page (page.drop pos)) (inside : pos < page.length) :
    ∃ ms, Markup.scan page = ms ++ (within page pos).marks ∧ ∀ m ∈ ms, m.UpTo pos := by
  obtain ⟨ms, stop, -, ends, marks, upTo⟩ := arrives.marks plain 0 rfl
  have here : stop = pos := by
    have lengths := congrArg List.length ends
    rw [List.length_drop, List.length_drop] at lengths
    omega
  subst here
  exact ⟨ms, marks, upTo⟩

/-- What a scan reads at a `<` in front of the position has no end, or ends behind the position. -/
def Swallowed (page : Text) (i : Nat) : Prop :=
  ∃ j < i, page[j]? = some (.scalar '<') ∧ Arrives page (page.drop j) ∧
    ∀ n, reach (page.drop j) = some n → i < j + n

/-- A scan arrives at every position that it does not pass over. -/
theorem arrives_or_swallowed {i : Nat} (inside : i ≤ page.length) :
    Arrives page (page.drop i) ∨ Swallowed page i := by
  -- By how far the position is ahead of where the scan stands.
  have progress : ∀ k j, j + k = i → Arrives page (page.drop j) →
      Arrives page (page.drop i) ∨ Swallowed page i := by
    intro k
    induction k using Nat.strong_induction_on with
    | _ k ih =>
      intro j sum arrives
      rcases Nat.eq_zero_or_pos k with rfl | ahead
      · exact .inl (sum ▸ arrives)
      · have short : j < page.length := by omega
        have stands := List.getElem?_eq_getElem short
        by_cases bracket : page[j] = .scalar '<'
        · rw [bracket] at stands
          have opened : (page.drop j).head? = some (.scalar '<') := by rw [List.head?_drop, stands]
          by_cases inside : ∃ n, reach (page.drop j) = some n ∧ j + n ≤ i
          · obtain ⟨n, reached, bound⟩ := inside
            have later : 0 < n := by
              obtain ⟨_, _, rfl⟩ := Option.map_eq_some_iff.mp reached
              exact Nat.succ_pos _
            have next := Arrives.read opened reached (.here _)
            rw [List.drop_drop] at next
            exact ih (k - n) (by omega) (j + n) (by omega) (arrives.trans next)
          · right
            refine ⟨j, by omega, stands, arrives, ?_⟩
            intro n reached
            by_contra early
            exact inside ⟨n, reached, by omega⟩
        · have next : Arrives (page.drop j) (page.drop (j + 1)) := by
            rw [drop_of_getElem? stands]
            exact .skip bracket (.here _)
          exact ih (k - 1) (by omega) (j + 1) (by omega) (arrives.trans next)
  exact progress i 0 (Nat.zero_add i) (.here page)

theorem begins_folded {t : Text} (begins : Begins t) :
    (folded 0 t).startsWith "<!" ∨ (folded 0 t).startsWith "<?" ∨
      ∃ kind, (folded 0 t).blockKind? = some kind := by
  rcases begins with bang | query | ⟨kind, opens⟩
  · exact .inl ((startsWith_folded_iff (by decide) 0 t).mpr bang)
  · exact .inr (.inl ((startsWith_folded_iff (by decide) 0 t).mpr query))
  · right
    right
    have named : (folded 0 t).opens kind.name := (namesTag_folded_iff _ t 1).mpr opens.2
    unfold Cursor.blockKind?
    by_cases style : (folded 0 t).opens Kind.style.name
    · exact ⟨.style, if_pos style⟩
    · have script : (folded 0 t).opens Kind.script.name := by
        cases kind with
        | style => exact absurd named style
        | script => exact named
      exact ⟨.script, by rw [if_neg style, if_pos script]⟩

theorem unclosed_of_readBlock {t : Text} {kind : Kind} {pos : Nat}
    (nothing : ((folded pos t).readBlock kind).2 = 0) :
    ((folded pos t).readBlock kind).1 = .unclosed kind := by
  unfold Cursor.readBlock at nothing ⊢
  split
  · rfl
  · rename_i n ends
    rw [ends] at nothing
    exfalso
    revert nothing
    dsimp only
    repeat' split
    all_goals
      intro nothing
      dsimp only at nothing
      omega

theorem unclosed_of_begins {t : Text} (opened : t.head? = some (.scalar '<')) (begins : Begins t)
    {pos : Nat} {mark : Option Mark} (read : (folded pos t).readTag = some (mark, 0)) :
    ∃ kind, mark = some (.unclosed kind) := by
  unfold Cursor.readTag at read
  split at read
  · obtain ⟨k, -, same⟩ := Option.map_eq_some_iff.mp read
    cases same
  · split at read
    · obtain ⟨k, found, same⟩ := Option.map_eq_some_iff.mp read
      cases same
      obtain ⟨short, stands, -⟩ := List.findIdx?_eq_some_iff_getElem.mp found
      have first : t.head? = some (.scalar '>') := by
        rw [List.head?_eq_getElem?]
        change (folded pos t).rest[0]? = _
        rw [List.getElem?_eq_getElem short]
        exact congrArg some (beq_iff_eq.mp stands)
      rw [opened] at first
      cases first
    · rename_i declaration
      rw [Bool.or_eq_true, not_or] at declaration
      split at read
      · rename_i kind _
        have same : some (some ((folded pos t).readBlock kind).1,
            ((folded pos t).readBlock kind).2) = some (mark, 0) := read
        simp only [Option.some.injEq, Prod.mk.injEq] at same
        obtain ⟨rfl, nothing⟩ := same
        exact ⟨kind, congrArg some (unclosed_of_readBlock nothing)⟩
      · rename_i missing
        exfalso
        rcases begins_folded begins with bang | query | ⟨kind, found⟩
        · exact declaration.1 bang
        · exact declaration.2 query
        · have same : (folded 0 t).blockKind? = none := missing
          rw [same] at found
          cases found

theorem bare_unclosed {mark mark' : Option Mark} {kind : Kind}
    (same : mark'.map Mark.bare = mark.map Mark.bare) (unclosed : mark' = some (.unclosed kind)) :
    mark = some (.unclosed kind) := by
  subst unclosed
  cases mark with
  | none => cases same
  | some m => cases m <;> cases same; rfl

theorem not_begins (plain : Sym.dottedI ∉ page) {pos : Nat} {mark : Option Mark}
    (opened : page[pos]? = some (.scalar '<')) (read : (within page pos).readTag = some (mark, 0))
    (other : ∀ kind, mark ≠ some (.unclosed kind)) : ¬ Begins (page.drop pos) := by
  intro begins
  obtain ⟨mark', read', bare⟩ := read_folded plain read
  obtain ⟨kind, unclosed⟩ := unclosed_of_begins (by rw [List.head?_drop, opened]) begins read'
  exact other kind (bare_unclosed bare unclosed)

theorem Reading.closed {start stop : Nat} {mark : Option Mark}
    (reading : Reading page start mark stop) (long : start + 1 < stop) :
    page[stop - 1]? = some (.scalar '>') := by
  cases reading with
  | comment begins ends =>
    have last := List.isPrefixOf_iff_prefix.mp ends.1.2
    exact Text.getElem?_of_begins last (x := 2) rfl
  | declaration comment begins ends => exact ends.1.2
  | block begins tagEnds closes => exact closes.ends.1.2
  | unopened begins endless => omega
  | unclosed begins tagEnds endless => exact tagEnds.1.2.1
  | other block => omega

theorem slice_piece (plain : Sym.dottedI ∉ page) {pos n : Nat} {mark : Option Mark}
    (opened : page[pos]? = some (.scalar '<')) (read : (within page pos).readTag = some (mark, n))
    (long : 0 < n) :
    Piece (page.slice pos (pos + n + 1)) ∧ (∀ kind, mark ≠ some (.unclosed kind)) ∨
      ∃ kind, mark = some (.unclosed kind) ∧ Opening kind (page.slice pos (pos + n + 1)) := by
  have reading := readTag_reading read
  have last := reading.closed (by omega)
  have bound := (reading.advances opened).2
  have length := page.length_slice (i := pos) bound
  have closed : Text.Closed (page.slice pos (pos + n + 1)) := by
    refine closed_of_last (n := n) ?_ (by omega)
    rw [Text.slice, List.getElem?_take_of_lt (by omega), List.getElem?_drop]
    exact last
  have split : page.drop pos = page.slice pos (pos + n + 1) ++ page.drop (pos + n + 1) := by
    have parts := List.take_append_drop (n + 1) (page.drop pos)
    rw [List.drop_drop] at parts
    rw [Text.slice, Nat.add_assoc, Nat.add_sub_cancel_left]
    exact parts.symm
  obtain ⟨mark', read', bare⟩ := read_folded plain read
  rw [split] at read'
  rcases piece_or_opening closed (by omega) read' (by omega) with ⟨piece, other⟩ | unclosed
  · refine .inl ⟨piece, ?_⟩
    intro kind unclosed
    exact other kind (bare_unclosed bare.symm unclosed)
  · obtain ⟨kind, found, opening, -⟩ := unclosed
    exact .inr ⟨kind, bare_unclosed bare found, opening⟩

/-- The scan gets to the position and leaves no element open on the way but styles that nothing
    behind their opening tag closes. -/
inductive Settled (page : Text) : Nat → Prop
  | start : Settled page 0
  | skip {pos : Nat} {s : Sym} (before : Settled page pos) (stands : page[pos]? = some s)
      (other : s ≠ .scalar '<') : Settled page (pos + 1)
  | read {pos n : Nat} {mark : Option Mark} (before : Settled page pos)
      (opened : page[pos]? = some (.scalar '<'))
      (read : (within page pos).readTag = some (mark, n))
      (closed : ∀ kind, mark = some (.unclosed kind) →
        kind = .style ∧ 0 < n ∧ ∀ i, pos + n < i → ¬ ClosesAt page .style i) :
      Settled page (pos + n + 1)

theorem Settled.passes {i j : Nat} (settled : Settled page i) (range : i ≤ j)
    (inside : j ≤ page.length) (quiet : ∀ x < j, i ≤ x → page[x]? ≠ some (.scalar '<')) :
    Settled page j := by
  induction j, range using Nat.le_induction with
  | base => exact settled
  | succ j range ih =>
    have stands := List.getElem?_eq_getElem (Nat.lt_of_succ_le inside)
    have before := ih (by omega) fun x ahead => quiet x (by omega)
    refine before.skip stands fun bracket => ?_
    exact quiet j (Nat.lt_succ_self j) range (stands.trans (congrArg some bracket))

theorem Settled.closed {pos n : Nat} (before : Settled page pos)
    (opened : page[pos]? = some (.scalar '<'))
    (seen : (within page pos).readTag.map (fun read => (read.1.bind Mark.unclosed?, read.2)) =
      some (none, n)) : Settled page (pos + n + 1) := by
  obtain ⟨⟨mark, _⟩, read, same⟩ := Option.map_eq_some_iff.mp seen
  obtain ⟨whole, rfl⟩ := Prod.mk.inj same
  refine .read before opened read ?_
  rintro kind rfl
  cases whole

theorem Settled.unclosed {pos n : Nat} (before : Settled page pos)
    (opened : page[pos]? = some (.scalar '<'))
    (seen : (within page pos).readTag.map (fun read => (read.1.bind Mark.unclosed?, read.2)) =
      some (some .style, n)) (long : 0 < n)
    (endless : ∀ i, pos + n < i → ¬ ClosesAt page .style i) : Settled page (pos + n + 1) := by
  obtain ⟨⟨mark, _⟩, read, same⟩ := Option.map_eq_some_iff.mp seen
  obtain ⟨unclosed, rfl⟩ := Prod.mk.inj same
  refine .read before opened read ?_
  rintro kind rfl
  exact ⟨Option.some.inj unclosed, long, endless⟩

theorem Settled.arrives (plain : Sym.dottedI ∉ page) {pos : Nat} (settled : Settled page pos) :
    Arrives page (page.drop pos) := by
  induction settled with
  | start => exact .here page
  | skip _ stands other ih =>
    rw [drop_of_getElem? stands] at ih
    exact ih.trans (.skip other (.here _))
  | @read pos n mark _ opened read closed ih =>
    have next := Arrives.read (by rw [List.head?_drop, opened]) (reach_of_read plain read) (.here _)
    rw [List.drop_drop, ← Nat.add_assoc] at next
    exact ih.trans next

theorem Settled.beside (plain : Sym.dottedI ∉ page) {pos n : Nat} {mark : Option Mark}
    (settled : Settled page pos)
    (opened : page[pos]? = some (.scalar '<'))
    (read : (within page pos).readTag = some (mark, n)) {m : Mark} (member : m ∈ scan page) :
    m.UpTo pos ∨ mark = some m ∨ m.From (pos + n + 1) := by
  obtain ⟨ms, marks, upTo⟩ := (settled.arrives plain).scan plain (position_lt opened)
  rw [marks, marks_read opened read, List.mem_append, List.mem_append] at member
  rcases member with early | here | late
  · exact .inl (upTo _ early)
  · exact .inr (.inl (Option.mem_toList.mp here))
  · exact .inr (.inr (marks_from _ _ late))

theorem Settled.tag_outside (plain : Sym.dottedI ∉ page) {pos n i : Nat} {mark : Option Mark}
    (settled : Settled page pos)
    (opened : page[pos]? = some (.scalar '<'))
    (read : (within page pos).readTag = some (mark, n)) {m : Mark} (member : m ∈ scan page)
    (tag : m.tag? = some i) : i ≤ pos ∨ pos + n + 1 ≤ i := by
  rcases settled.beside plain opened read member with early | here | late
  · cases m <;> cases tag
    all_goals
      simp only [Mark.UpTo] at early
      omega
  · subst here
    left
    rcases landmark_cases (landmark_of_tag read tag) with ⟨_, -, rfl⟩ | here
    · cases tag
    · rw [tag] at here
      exact Nat.le_of_eq (Option.some.inj here)
  · cases m <;> cases tag
    all_goals
      simp only [Mark.From] at late
      omega

end Page

end Markup

end Unbundle
