import Unbundle.Proofs.Markup.Origin
import Unbundle.Proofs.Text.Slice

namespace Unbundle

theorem Text.cons_prefix_drop {page needle : Text} {s : Sym} {i : Nat} :
    s :: needle <+: page.drop i ↔ page[i]? = some s ∧ needle <+: page.drop (i + 1) := by
  rw [← List.head?_drop, ← List.tail_drop]
  cases page.drop i with
  | nil => simp
  | cons x rest => simp [List.cons_prefix_cons, eq_comm]

inductive Landmark
  | headClose
  | bodyOpen
  | htmlOpen
  | bodyClose
  | htmlClose
deriving DecidableEq

namespace Landmark

def tag : Landmark → Text
  | .headClose => "</head"
  | .bodyOpen => "<body"
  | .htmlOpen => "<html"
  | .bodyClose => "</body"
  | .htmlClose => "</html"

def view : Landmark → Mark → Option Nat
  | .headClose => Mark.headClose?
  | .bodyOpen => Mark.bodyOpen?
  | .htmlOpen => Mark.htmlOpen?
  | .bodyClose => Mark.bodyClose?
  | .htmlClose => Mark.htmlClose?

def mark? (c : Markup.Cursor) : Landmark → Option Mark
  | .headClose => some (.headClose c.pos)
  | .bodyOpen => some (.bodyOpen c.pos)
  | .htmlOpen => (Markup.tagEnd? none (c.rest.drop 1)).map fun n => .htmlOpen (c.pos + n + 2)
  | .bodyClose => some (.bodyClose c.pos)
  | .htmlClose => some (.htmlClose c.pos)

theorem view_block (l : Landmark) (b : Block) : l.view (.block b) = none := by
  cases l <;> rfl

theorem view_mark_of_ne {l l' : Landmark} (other : l' ≠ l) (c : Markup.Cursor) :
    (l'.mark? c).bind l.view = none := by
  cases l <;> cases l'
  all_goals first
    | contradiction
    | rfl
    | simp [mark?, view, Mark.headClose?, Mark.bodyOpen?, Mark.bodyClose?, Mark.htmlClose?]

end Landmark

namespace Markup

open Cursor (within)

/-- No declaration, comment or instruction begins in the page, and every style and script ends. -/
structure Tidy (page : Text) : Prop where
  plain : Sym.dottedI ∉ page
  declarations : ¬ ("<!" : Text) <:+: page
  instructions : ¬ ("<?" : Text) <:+: page
  finished : (scan page).unclosed? = none

def Outside (page : Text) (i : Nat) : Prop := ∀ b ∈ (scan page).blocks, ¬ b.Covers i

/-- The tag stands there, its letters in either case, and no block holds it. An `<html>` tag has to
    end, too. -/
structure Counts (page : Text) (l : Landmark) (i : Nat) : Prop where
  named : NameAt page l.tag i
  outside : Outside page i
  ends : l = .htmlOpen → ∃ e, EndsTag page i e

/-- Where a reference goes for the tag at `i`: in front of it, or behind it if it is `<html>`. -/
def Puts (page : Text) (i : Nat) : Landmark → Nat → Prop
  | .htmlOpen, n => IsLeast {n | ∃ e, EndsTag page i e ∧ n = e + 1} n
  | _, n => n = i

section Named

variable {page : Text} {i : Nat}

theorem nameAt_cons (s : Sym) (name : Text) : NameAt page (s :: name) i ↔
    page[i]?.map Sym.asciiLower = some s ∧ NameAt page name (i + 1) := by
  have length : i + (s :: name).length = i + 1 + name.length := by
    rw [List.length_cons]
    omega
  rw [NameAt, NameAt, length, List.map_drop, Text.cons_prefix_drop, List.getElem?_map,
    ← List.map_drop, and_assoc]

theorem NameAt.symbol {name : Text} (named : NameAt page name i) {k : Nat}
    (short : k < name.length) : page[i + k]?.map Sym.asciiLower = name[k]? := by
  have begins := named.1
  rw [List.map_drop] at begins
  have stands := Text.getElem?_eq_of_begins begins (Nat.le_add_right i k) (by omega)
  rwa [Nat.add_sub_cancel_left, List.getElem?_map] at stands

theorem NameAt.bracket {l : Landmark} (named : NameAt page l.tag i) :
    page[i]? = some (.scalar '<') := by
  have first : page[i]?.map Sym.asciiLower = some (.scalar '<') := by
    have symbol := named.symbol (k := 0) (by cases l <;> decide)
    rw [Nat.add_zero] at symbol
    rw [symbol]
    cases l <;> rfl
  obtain ⟨s, stands, folded⟩ := Option.map_eq_some_iff.mp first
  rw [stands, (s.asciiLower_eq_iff (by decide)).mp folded]

theorem landmark_unique {l l' : Landmark} (left : NameAt page l.tag i)
    (right : NameAt page l'.tag i) : l = l' := by
  rcases List.prefix_or_prefix_of_prefix left.1 right.1 with before | before
  · revert before
    cases l <;> cases l' <;> decide
  · revert before
    cases l <;> cases l' <;> decide

theorem view_mark_iff (l : Landmark) (n : Nat) :
    (l.mark? (within page i)).bind l.view = some n ↔ Puts page i l n := by
  have here : some i = some n ↔ n = i := by rw [Option.some_inj, eq_comm]
  cases l with
  | headClose => exact here
  | bodyOpen => exact here
  | bodyClose => exact here
  | htmlClose => exact here
  | htmlOpen =>
    simp only [Landmark.mark?, within, List.drop_drop, Puts]
    cases tag : tagEnd? none (page.drop (i + 1)) with
    | none =>
      refine iff_of_false (by simp) ?_
      rintro ⟨⟨e, ends, -⟩, -⟩
      exact tagEnd_never_endsTag tag e ends
    | some k =>
      have least := isLeast_succ.mpr ⟨_, tagEnd_isLeast_endsTag tag, rfl⟩
      change some (i + k + 2) = some n ↔ _
      rw [show i + k + 2 = i + 1 + k + 1 by omega, Option.some_inj]
      exact ⟨fun same => same ▸ least, fun other => least.unique other⟩

section Plain

variable (plain : Sym.dottedI ∉ page)

include plain

theorem opens_within_iff (opened : page[i]? = some (.scalar '<')) {name : Text}
    (seen : ∀ x ∈ name, x.isOneOf tagChars) :
    (within page i).opens name ↔ NameAt page (.scalar '<' :: name) i := by
  have bracket : page[i]?.map Sym.asciiLower = some (.scalar '<') := by
    rw [opened]
    rfl
  rw [Cursor.opens, within, List.drop_drop, namesTag_lower_iff plain seen, nameAt_cons,
    and_iff_right bracket]

theorem closes_within_iff {name : Text} (seen : ∀ x ∈ name, x.isOneOf tagChars) :
    (within page i).closes name ↔ NameAt page (.scalar '<' :: .scalar '/' :: name) i := by
  have folded : ∀ (x : Sym) (k : Nat), x.isLetter = false →
      (page[k]? = some x ↔ page[k]?.map Sym.asciiLower = some x) := by
    intro x k plain
    cases page[k]? with
    | none => exact Iff.rfl
    | some s => rw [Option.map_some, Option.some_inj, Option.some_inj, s.asciiLower_eq_iff plain]
  have slash : ("</" : Text) <+: page.drop i ↔
      page[i]? = some (.scalar '<') ∧ page[i + 1]? = some (.scalar '/') := by
    change [Sym.scalar '<', Sym.scalar '/'] <+: _ ↔ _
    rw [Text.cons_prefix_drop, Text.cons_prefix_drop, and_iff_left List.nil_prefix]
  rw [Cursor.closes, closes, within, Bool.and_eq_true, List.drop_drop,
    namesTag_lower_iff plain seen, prefix_lower_iff plain (by decide), nameAt_cons, nameAt_cons,
    slash, folded _ _ (by decide), folded _ _ (by decide), and_assoc]

theorem tests_iff (opened : page[i]? = some (.scalar '<')) :
    ((within page i).opens "html" ↔ NameAt page Landmark.htmlOpen.tag i) ∧
      ((within page i).opens "body" ↔ NameAt page Landmark.bodyOpen.tag i) ∧
      ((within page i).closes "head" ↔ NameAt page Landmark.headClose.tag i) ∧
      ((within page i).closes "body" ↔ NameAt page Landmark.bodyClose.tag i) ∧
      ((within page i).closes "html" ↔ NameAt page Landmark.htmlClose.tag i) :=
  ⟨opens_within_iff plain opened (by decide), opens_within_iff plain opened (by decide),
    closes_within_iff plain (by decide), closes_within_iff plain (by decide),
    closes_within_iff plain (by decide)⟩

theorem landmark_of_named {l : Landmark} (named : NameAt page l.tag i) :
    (within page i).landmark? = l.mark? (within page i) := by
  have only : ∀ l', NameAt page l'.tag i ↔ l' = l := fun l' =>
    ⟨fun other => landmark_unique other named, fun same => same ▸ named⟩
  obtain ⟨html, body, headClose, bodyClose, htmlClose⟩ := tests_iff plain named.bracket
  simp only [Cursor.landmark?, html, body, headClose, bodyClose, htmlClose, only]
  cases l <;> rfl

theorem landmark_of_unnamed (opened : page[i]? = some (.scalar '<'))
    (unnamed : ∀ l : Landmark, ¬ NameAt page l.tag i) : (within page i).landmark? = none := by
  obtain ⟨html, body, headClose, bodyClose, htmlClose⟩ := tests_iff plain opened
  simp only [Cursor.landmark?, html, body, headClose, bodyClose, htmlClose, unnamed, if_false]

theorem view_landmark_iff (opened : page[i]? = some (.scalar '<')) (l : Landmark) (n : Nat) :
    (within page i).landmark?.bind l.view = some n ↔ NameAt page l.tag i ∧ Puts page i l n := by
  by_cases found : ∃ l' : Landmark, NameAt page l'.tag i
  · obtain ⟨l', named⟩ := found
    rw [landmark_of_named plain named]
    by_cases same : l' = l
    · subst same
      rw [view_mark_iff, and_iff_right named]
    · rw [Landmark.view_mark_of_ne same]
      refine iff_of_false (by simp) ?_
      exact fun other => same (landmark_unique named other.1)
  · rw [landmark_of_unnamed plain opened (not_exists.mp found)]
    exact iff_of_false (by simp) fun other => found ⟨l, other.1⟩

end Plain

end Named

theorem puts_of_ends {page : Text} {l : Landmark} {i : Nat}
    (ends : l = .htmlOpen → ∃ e, EndsTag page i e) : ∃ n, Puts page i l n := by
  cases l with
  | htmlOpen =>
    obtain ⟨e, found⟩ := ends rfl
    exact ⟨_, isLeast_csInf ⟨e + 1, e, found, rfl⟩⟩
  | headClose => exact ⟨i, rfl⟩
  | bodyOpen => exact ⟨i, rfl⟩
  | bodyClose => exact ⟨i, rfl⟩
  | htmlClose => exact ⟨i, rfl⟩

theorem ends_of_puts {page : Text} {l : Landmark} {i n : Nat} (puts : Puts page i l n)
    (html : l = .htmlOpen) : ∃ e, EndsTag page i e := by
  subst html
  obtain ⟨e, ends, -⟩ := puts.1
  exact ⟨e, ends⟩

/-- The `<` from a position on that no block holds are `starts`, and all marks but blocks were made
    there. -/
structure Reads (page : Text) (pos : Nat) (ms : Marks) (starts : List Nat) : Prop where
  behind : ∀ b ∈ ms.blocks, pos ≤ b.start
  ordered : starts.Pairwise (· < ·)
  complete : ∀ i, i ∈ starts ↔
    pos ≤ i ∧ page[i]? = some (.scalar '<') ∧ ∀ b ∈ ms.blocks, ¬ b.Covers i
  marks : ∀ {α : Type} (view : Mark → Option α), (∀ b, view (.block b) = none) →
    ms.filterMap view = starts.filterMap fun i => (within page i).landmark?.bind view

section Reads

variable {page : Text}

theorem reads_blank {pos : Nat} (blank : ∀ i, pos ≤ i → page[i]? ≠ some (.scalar '<')) :
    Reads page pos [] [] where
  behind := by simp [Marks.blocks]
  ordered := .nil
  complete i := iff_of_false List.not_mem_nil fun here => blank i here.1 here.2.1
  marks _ _ := rfl

theorem Reads.block {pos start : Nat} {b : Block} {ms : Marks} {starts : List Nat}
    (first : FirstTag page pos start) (begins : b.start = start) (ahead : start < b.stop)
    (later : Reads page b.stop ms starts) : Reads page pos (.block b :: ms) starts where
  behind := by
    intro c member
    have reached := first.1.1
    rcases List.mem_cons.mp member with rfl | member
    · omega
    · have beyond := later.behind c member
      omega
  ordered := later.ordered
  complete := by
    intro i
    rw [later.complete]
    constructor
    · intro ⟨beyond, bracket, outside⟩
      have reached := first.1.1
      refine ⟨by omega, bracket, List.forall_mem_cons.mpr ⟨?_, outside⟩⟩
      exact fun covers => Nat.not_le_of_lt covers.2 beyond
    · intro ⟨reached, bracket, outside⟩
      obtain ⟨apart, outside⟩ := List.forall_mem_cons.mp outside
      have behind := first.2 ⟨reached, bracket⟩
      refine ⟨Nat.le_of_not_lt fun before => apart ⟨?_, before⟩, bracket, outside⟩
      rwa [begins]
  marks view blind := by rw [List.filterMap_cons_none (blind b), later.marks view blind]

theorem Reads.other {pos start : Nat} {ms : Marks} {starts : List Nat}
    (first : FirstTag page pos start) (later : Reads page (start + 1) ms starts) :
    Reads page pos ((within page start).landmark?.toList ++ ms) (start :: starts) := by
  have blocks : Marks.blocks ((within page start).landmark?.toList ++ ms) = ms.blocks := by
    rw [Marks.blocks, List.filterMap_append]
    cases found : (within page start).landmark? with
    | none => rfl
    | some m =>
      cases m with
      | block b => exact absurd found landmark_not_block
      | _ => rfl
  have reached := first.1.1
  constructor
  · intro b member
    rw [blocks] at member
    have beyond := later.behind b member
    omega
  · refine List.pairwise_cons.mpr ⟨?_, later.ordered⟩
    intro i member
    exact ((later.complete i).mp member).1
  · intro i
    rw [List.mem_cons, later.complete, blocks]
    constructor
    · rintro (rfl | ⟨beyond, bracket, outside⟩)
      · refine ⟨reached, first.1.2, ?_⟩
        intro b member covers
        exact Nat.not_le_of_lt (later.behind b member) covers.1
      · exact ⟨by omega, bracket, outside⟩
    · intro ⟨from_pos, bracket, outside⟩
      rcases Nat.eq_or_lt_of_le (first.2 ⟨from_pos, bracket⟩) with same | ahead
      · exact .inl same.symm
      · exact .inr ⟨ahead, bracket, outside⟩
  · intro α view blind
    rw [List.filterMap_append, later.marks view blind]
    cases found : (within page start).landmark? with
    | none => simp [found]
    | some m => cases seen : view m <;> simp [found, seen]

end Reads

section Tidy

variable {page : Text} (tidy : Tidy page)

include tidy

theorem Tidy.not_declaration (i : Nat) : ¬ (("<!" : Text).isPrefixOf (page.lower.drop i) ∨
    ("<?" : Text).isPrefixOf (page.lower.drop i)) := by
  have inside : ∀ {needle : Text}, needle <+: page.drop i → needle <:+: page := fun begins =>
    begins.isInfix.trans (List.drop_suffix i page).isInfix
  rw [prefix_lower_iff tidy.plain (by decide), prefix_lower_iff tidy.plain (by decide)]
  rintro (bang | query)
  · exact tidy.declarations (inside bang)
  · exact tidy.instructions (inside query)

theorem Tidy.not_comment (i : Nat) : ¬ ("<!--" : Text).isPrefixOf (page.lower.drop i) := by
  intro begins
  refine tidy.not_declaration i (.inl ?_)
  rw [List.isPrefixOf_iff_prefix] at begins ⊢
  exact List.IsPrefix.trans (by decide) begins

theorem Tidy.reading {start stop : Nat} {mark : Option Mark}
    (reading : Reading page start mark stop) (ended : ∀ m ∈ mark, m.unclosed? = none) :
    (∃ b, mark = some (.block b) ∧ b.start = start ∧ b.stop = stop) ∨
      mark = (within page start).landmark? ∧ stop = start + 1 := by
  cases reading with
  | comment begins ends => exact absurd begins (tidy.not_comment start)
  | declaration comment begins ends => exact absurd begins (tidy.not_declaration start)
  | block begins tagEnds closes => exact .inl ⟨_, rfl, rfl, rfl⟩
  | unopened begins endless => cases ended _ rfl
  | unclosed begins tagEnds endless => cases ended _ rfl
  | other block => exact .inr ⟨rfl, rfl⟩

theorem Tidy.reads : ∃ starts, Reads page 0 (scan page) starts := by
  have ended : ∀ m ∈ scan page, m.unclosed? = none := by
    intro m member
    exact List.findSome?_eq_none_iff.mp tidy.finished m (List.mem_reverse.mpr member)
  revert ended
  refine scan_induction (motive := fun pos ms => (∀ m ∈ ms, m.unclosed? = none) →
    ∃ starts, Reads page pos ms starts) ?_ ?_ ?_
  · exact fun pos blank _ => ⟨[], reads_blank blank⟩
  · intro pos start _ halts
    cases halts with
    | comment begins endless => exact absurd begins (tidy.not_comment start)
    | declaration comment begins endless => exact absurd begins (tidy.not_declaration start)
  · intro pos start mark stop ms first reading later ended
    obtain ⟨starts, reads⟩ := later fun m member => ended m (List.mem_append_right _ member)
    have ahead := (reading.advances first.1.2).1
    rcases tidy.reading reading fun m here =>
      ended m (List.mem_append_left _ (Option.mem_toList.mpr here)) with
        ⟨b, rfl, begins, rfl⟩ | ⟨rfl, rfl⟩
    · exact ⟨starts, reads.block first begins ahead⟩
    · exact ⟨start :: starts, reads.other first⟩

end Tidy

theorem findSome?_ordered {starts : List Nat} {r : Nat → Nat → Prop} (ordered : starts.Pairwise r)
    {read : Nat → Option Nat} {n : Nat} (found : starts.findSome? read = some n) :
    ∃ i ∈ starts, read i = some n ∧ ∀ j ∈ starts, (read j).isSome → j = i ∨ r i j := by
  obtain ⟨before, i, behind, rfl, here, missing⟩ := List.findSome?_eq_some_iff.mp found
  refine ⟨i, by simp, here, ?_⟩
  intro j member seen
  rcases List.mem_append.mp member with early | late
  · rw [missing j early] at seen
    cases seen
  · rcases List.mem_cons.mp late with same | later
    · exact .inl same
    · exact .inr (List.rel_of_pairwise_cons (List.pairwise_append.mp ordered).2.1 later)

namespace Reads

variable {page : Text} {starts : List Nat} (reads : Reads page 0 (scan page) starts)

include reads

theorem first? {α : Type} {view : Mark → Option α} (blind : ∀ b, view (.block b) = none) :
    (scan page).first? view = starts.findSome? fun i => (within page i).landmark?.bind view := by
  rw [Marks.first?, ← List.head?_filterMap, reads.marks view blind, List.head?_filterMap]

theorem last? {α : Type} {view : Mark → Option α} (blind : ∀ b, view (.block b) = none) :
    (scan page).last? view =
      starts.reverse.findSome? fun i => (within page i).landmark?.bind view := by
  rw [Marks.last?, ← List.head?_filterMap, List.filterMap_reverse, reads.marks view blind,
    ← List.filterMap_reverse, List.head?_filterMap]

theorem doctypeEnd? : (scan page).doctypeEnd? = none := by
  rw [Marks.doctypeEnd?, reads.first? fun _ => rfl, List.findSome?_eq_none_iff]
  intro i _
  cases found : (within page i).landmark? with
  | none => rfl
  | some m =>
    rcases landmark_cases found with ⟨e, -, rfl⟩ | tag
    · rfl
    · cases m <;> first | rfl | cases tag

theorem counts_iff (plain : Sym.dottedI ∉ page) (l : Landmark) (i : Nat) :
    Counts page l i ↔ i ∈ starts ∧ ((within page i).landmark?.bind l.view).isSome := by
  rw [reads.complete]
  constructor
  · intro counts
    obtain ⟨n, puts⟩ := puts_of_ends counts.ends
    have opened := counts.named.bracket
    rw [(view_landmark_iff plain opened l n).mpr ⟨counts.named, puts⟩]
    exact ⟨⟨Nat.zero_le i, opened, counts.outside⟩, rfl⟩
  · intro ⟨⟨_, opened, outside⟩, seen⟩
    obtain ⟨n, found⟩ := Option.isSome_iff_exists.mp seen
    obtain ⟨named, puts⟩ := (view_landmark_iff plain opened l n).mp found
    exact ⟨named, outside, ends_of_puts puts⟩

/-- A search in some order of the `<` stops at the first one, in that order, that counts. -/
theorem found (plain : Sym.dottedI ∉ page) {l : Landmark} {order : List Nat}
    (same : ∀ i, i ∈ order ↔ i ∈ starts) {r : Nat → Nat → Prop} (ordered : order.Pairwise r)
    {n : Nat}
    (found : order.findSome? (fun i => (within page i).landmark?.bind l.view) = some n) :
    ∃ i, Counts page l i ∧ Puts page i l n ∧ ∀ j, Counts page l j → j = i ∨ r i j := by
  obtain ⟨i, member, seen, extreme⟩ := findSome?_ordered ordered found
  have counts : Counts page l i :=
    (reads.counts_iff plain l i).mpr ⟨(same i).mp member, by rw [seen]; rfl⟩
  refine ⟨i, counts, ((view_landmark_iff plain counts.named.bracket l n).mp seen).2, ?_⟩
  intro j other
  obtain ⟨member, seen⟩ := (reads.counts_iff plain l j).mp other
  exact extreme j ((same j).mpr member) seen

end Reads

section Found

variable {page : Text} (tidy : Tidy page) {l : Landmark}

include tidy

theorem Tidy.first_found {n : Nat} (found : (scan page).first? l.view = some n) :
    ∃ i, IsLeast {i | Counts page l i} i ∧ Puts page i l n := by
  obtain ⟨starts, reads⟩ := tidy.reads
  rw [reads.first? l.view_block] at found
  obtain ⟨i, counts, puts, least⟩ :=
    reads.found tidy.plain (fun _ => Iff.rfl) reads.ordered found
  refine ⟨i, ⟨counts, ?_⟩, puts⟩
  intro j other
  rcases least j other with rfl | later
  · exact Nat.le_refl j
  · exact Nat.le_of_lt later

theorem Tidy.last_found {n : Nat} (found : (scan page).last? l.view = some n) :
    ∃ i, IsGreatest {i | Counts page l i} i ∧ Puts page i l n := by
  obtain ⟨starts, reads⟩ := tidy.reads
  rw [reads.last? l.view_block] at found
  have backward : starts.reverse.Pairwise (· > ·) := List.pairwise_reverse.mpr reads.ordered
  obtain ⟨i, counts, puts, greatest⟩ :=
    reads.found tidy.plain (fun _ => List.mem_reverse) backward found
  refine ⟨i, ⟨counts, ?_⟩, puts⟩
  intro j other
  rcases greatest j other with rfl | earlier
  · exact Nat.le_refl j
  · exact Nat.le_of_lt earlier

theorem Tidy.first_missing (missing : (scan page).first? l.view = none) (i : Nat) :
    ¬ Counts page l i := by
  obtain ⟨starts, reads⟩ := tidy.reads
  rw [reads.first? l.view_block] at missing
  rw [reads.counts_iff tidy.plain]
  rintro ⟨member, seen⟩
  rw [List.findSome?_eq_none_iff.mp missing i member] at seen
  cases seen

theorem Tidy.last_missing (missing : (scan page).last? l.view = none) (i : Nat) :
    ¬ Counts page l i := by
  apply tidy.first_missing
  rw [Marks.last?, List.findSome?_eq_none_iff] at missing
  exact List.findSome?_eq_none_iff.mpr fun m member => missing m (List.mem_reverse.mpr member)

end Found

/-- Where the reference of a kind belongs, and which tag it goes in front of, if it does. -/
inductive Place (page : Text) : Kind → Option Landmark → Nat → Prop
  | headClose {i : Nat} (first : IsLeast {i | Counts page .headClose i} i) :
      Place page .style (some .headClose) i
  | bodyOpen {i : Nat} (head : ∀ i, ¬ Counts page .headClose i)
      (first : IsLeast {i | Counts page .bodyOpen i} i) : Place page .style (some .bodyOpen) i
  | htmlOpen {i n : Nat} (head : ∀ i, ¬ Counts page .headClose i)
      (body : ∀ i, ¬ Counts page .bodyOpen i) (first : IsLeast {i | Counts page .htmlOpen i} i)
      (ends : IsLeast {n | ∃ e, EndsTag page i e ∧ n = e + 1} n) : Place page .style none n
  | start (head : ∀ i, ¬ Counts page .headClose i) (body : ∀ i, ¬ Counts page .bodyOpen i)
      (html : ∀ i, ¬ Counts page .htmlOpen i) : Place page .style none 0
  | bodyClose {i : Nat} (last : IsGreatest {i | Counts page .bodyClose i} i) :
      Place page .script (some .bodyClose) i
  | htmlClose {i : Nat} (body : ∀ i, ¬ Counts page .bodyClose i)
      (last : IsGreatest {i | Counts page .htmlClose i} i) : Place page .script (some .htmlClose) i
  | stop (body : ∀ i, ¬ Counts page .bodyClose i) (html : ∀ i, ¬ Counts page .htmlClose i) :
      Place page .script none page.length

end Markup

end Unbundle
