import Unbundle.Proofs.Assets.Tally
import Unbundle.Proofs.Split.Delivery
import Unbundle.Proofs.Text.Slice

namespace Unbundle

namespace Text

def isNumeral : Sym → Bool
  | .scalar c => c.isDigit
  | .raw _ => false

theorem ofNat_eq_map (n : Nat) : ofNat n = (Nat.toDigits 10 n).map .scalar :=
  congrArg (List.map Sym.scalar) Nat.toList_repr

theorem ofNat_injective {m n : Nat} (same : ofNat m = ofNat n) : m = n := by
  rw [ofNat_eq_map, ofNat_eq_map] at same
  have digits : Nat.toDigits 10 m = Nat.toDigits 10 n :=
    List.map_injective_iff.mpr (fun _ _ equal => Sym.scalar.inj equal) same
  rw [← Nat.ofDigitChars_toDigits (b := 10) (n := m) (by decide) (by decide), digits,
    Nat.ofDigitChars_toDigits (by decide) (by decide)]

theorem ofNat_numerals {n : Nat} {s : Sym} (member : s ∈ ofNat n) : isNumeral s := by
  rw [ofNat_eq_map] at member
  obtain ⟨c, digit, rfl⟩ := List.mem_map.mp member
  exact Nat.isDigit_of_mem_toDigits (by decide) (by decide) digit

theorem ofNat_append_inj {m n : Nat} {rest rest' : Text}
    (ends : ∀ s, rest.head? = some s → isNumeral s = false)
    (ends' : ∀ s, rest'.head? = some s → isNumeral s = false)
    (same : ofNat m ++ rest = ofNat n ++ rest') : m = n ∧ rest = rest' := by
  have front := congrArg (List.takeWhile isNumeral) same
  rw [takeWhile_exact (fun _ => ofNat_numerals) ends,
    takeWhile_exact (fun _ => ofNat_numerals) ends'] at front
  rw [front] at same
  exact ⟨ofNat_injective front, List.append_cancel_left same⟩

end Text

namespace Notice

theorem message_unclosed (kind : Kind) : (unclosed kind).message =
    "Unterminated <" ++ kind.name ++ "> element left in place." :=
  rfl

theorem message_leftInline (kind : Kind) (found left : Nat) :
    (leftInline kind found left).message =
      "Found " ++ Text.ofNat found ++ " inline <" ++ kind.name ++
        "> blocks; only the first was extracted, " ++ Text.ofNat left ++ " left inline." :=
  rfl

theorem unclosed_ne_leftInline {kind kind' : Kind} {found left : Nat} :
    (unclosed kind).message ≠ (leftInline kind' found left).message := by
  simp [message_unclosed, message_leftInline]

theorem kind_of_name {kind kind' : Kind} {t u : Text} (same : kind.name ++ t = kind'.name ++ u) :
    kind = kind' := by
  have differ (t u : Text) : ("style" : Text) ++ t ≠ "script" ++ u := by simp
  cases kind with
  | style =>
    cases kind' with
    | style => rfl
    | script => exact absurd same (differ t u)
  | script =>
    cases kind' with
    | style => exact absurd same.symm (differ u t)
    | script => rfl

theorem message_injective {a b : Notice} (same : a.message = b.message) : a = b := by
  have counted (t : Text) : ∀ s, ((" inline <" : Text) ++ t).head? = some s →
      Text.isNumeral s = false := by
    simp [Text.isNumeral]
  have ended : ∀ s, (" left inline." : Text).head? = some s → Text.isNumeral s = false := by
    simp [Text.isNumeral]
  cases a with
  | unclosed kind =>
    cases b with
    | unclosed kind' =>
      rw [message_unclosed, message_unclosed, List.append_assoc, List.append_assoc] at same
      rw [kind_of_name (List.append_cancel_left same)]
    | leftInline kind' found left => exact absurd same unclosed_ne_leftInline
  | leftInline kind found left =>
    cases b with
    | unclosed kind' => exact absurd same.symm unclosed_ne_leftInline
    | leftInline kind' found' left' =>
      simp only [message_leftInline, List.append_assoc] at same
      obtain ⟨rfl, named⟩ := Text.ofNat_append_inj (counted _) (counted _)
        (List.append_cancel_left same)
      have named := List.append_cancel_left named
      obtain rfl := kind_of_name named
      have rest := List.append_cancel_left (List.append_cancel_left named)
      rw [(Text.ofNat_append_inj ended ended rest).1]

def entry (n : Notice) : LogEntry := ⟨.warning, .extraction, n.message⟩

theorem entry_injective : Function.Injective entry := by
  intro a b same
  exact message_injective (LogEntry.mk.inj same).2.2

end Notice

theorem notices_logged {σ : Type} (notices : List Notice) (w : σ) (log : Log) :
    (notices.forM fun notice =>
      (Task.say .warning .extraction notice.message : Task σ Unit)).run.run ⟨w, log⟩ =
        (.ok (), ⟨w, log ++ notices.map Notice.entry⟩) := by
  induction notices generalizing log with
  | nil => rw [List.map_nil, List.append_nil]; rfl
  | cons notice rest ih =>
    rw [List.map_cons, List.append_cons]
    exact ih (log ++ [notice.entry])

theorem extraction_logged {σ : Type} (page : Text) (all : Bool) (w : σ) (log : Log) :
    (extraction page all : Task σ Assets).run.run ⟨w, log⟩ =
      (.ok (.ofText page all), ⟨w, log ++ (Plan.make page all).notices.map Notice.entry⟩) :=
  Task.bind_ok (notices_logged _ w log)

namespace Plan

variable {p : Plan}

theorem mem_leftInline {n : Notice} {kind : Kind} : n ∈ p.leftInline kind ↔
    (p.chosen kind).length < (p.found kind).length ∧
      n = .leftInline kind (p.found kind).length
        ((p.found kind).length - (p.chosen kind).length) := by
  unfold leftInline
  dsimp only
  split <;> simp [*]

theorem mem_notices {kind : Kind} {found left : Nat} : .leftInline kind found left ∈ p.notices ↔
    (p.chosen kind).length < (p.found kind).length ∧ found = (p.found kind).length ∧
      left = (p.found kind).length - (p.chosen kind).length := by
  unfold notices
  rw [List.append_assoc, List.mem_append, List.mem_append, mem_leftInline, mem_leftInline]
  cases kind <;> simp

theorem leftInline_nodup (p : Plan) (kind : Kind) : (p.leftInline kind).Nodup := by
  unfold leftInline
  dsimp only
  split <;> simp

theorem notices_nodup (p : Plan) : p.notices.Nodup := by
  have single : (p.marks.unclosed?.toList.map Notice.unclosed).Nodup := by
    cases p.marks.unclosed? <;> simp
  unfold notices
  rw [List.append_assoc]
  refine single.append ((p.leftInline_nodup .style).append (p.leftInline_nodup .script) ?_) ?_
  · intro n style script
    cases (mem_leftInline.mp style).2.symm.trans (mem_leftInline.mp script).2
  · intro n unclosed left
    obtain ⟨kind, -, rfl⟩ := List.mem_map.mp unclosed
    rcases List.mem_append.mp left with style | script
    · cases (mem_leftInline.mp style).2
    · cases (mem_leftInline.mp script).2

theorem movedCount_eq (p : Plan) (kind : Kind) :
    Report.movedCount p.all (p.found kind).length (p.text? kind) = (p.chosen kind).length := by
  unfold text?
  cases chosen : p.chosen kind with
  | nil => rfl
  | cons first rest =>
    cases all : p.all with
    | true =>
      have every : (p.found kind).length = rest.length + 1 := by
        rw [← chosen_all all, chosen, List.length_cons]
      exact every
    | false =>
      have one : (p.chosen kind).length ≤ 1 := by
        rw [Plan.chosen, all, if_neg Bool.false_ne_true]
        exact List.length_take_le _ _
      rw [chosen, List.length_cons] at one
      rw [List.length_cons, Nat.le_zero.mp (Nat.le_of_succ_le_succ one)]
      rfl

end Plan

def Kind.warning (kind : Kind) (found left : Nat) : LogEntry :=
  ⟨.warning, .extraction, "Found " ++ Text.ofNat found ++ " inline <" ++ kind.name ++
    "> blocks; only the first was extracted, " ++ Text.ofNat left ++ " left inline."⟩

theorem Command.run_inspect [Schema] (s : Store) (debug : Bool) (input : Path) (all : Bool) :
    (inspect debug input all).run s =
      (.ofInspection debug all (s.inspectFile input all).2.log (s.inspectFile input all).1,
        (s.inspectFile input all).2.world) :=
  rfl

def Report.line (p : Plan) (kind : Kind) : Text :=
  ofCounts kind (p.found kind).length (p.chosen kind).length ++ "\n"

theorem inspect_stdout [Schema] {s : Store} {input : Path} {document : Document}
    (loaded : s.load input = .ok document) (debug all : Bool) :
    ((Command.inspect debug input all).run s).1.stdout =
      Report.line (.make document.text all) .style ++
        Report.line (.make document.text all) .script := by
  have answered := (s.inspectFile_eq input all).1
  rw [loaded] at answered
  rw [Command.run_inspect, answered, Report.line, Report.line, ← Plan.movedCount_eq,
    ← Plan.movedCount_eq]
  rfl

/-- Of each kind an inspection counts the blocks that can be moved and those that extraction
    deletes, and extraction warns exactly if blocks are left. -/
theorem Report.counts_told [Schema] (page : Text) (all : Bool) : ∃ found moved : Kind → Nat,
    (∀ kind, (Plan.make page all).Tallies kind (found kind) (moved kind)) ∧
    (Assets.ofText page all).markup = (Plan.make page all).traced.map Prod.snd ∧
    (∀ (s : Store) (debug : Bool) (input : Path) (document : Document),
      s.load input = .ok document → document.text = page →
      ((Command.inspect debug input all).run s).1.stdout =
        ofCounts .style (found .style) (moved .style) ++ "\n" ++
          (ofCounts .script (found .script) (moved .script) ++ "\n")) ∧
    ∀ (σ : Type) (w : σ) (log : Log), ∃ entries,
      (extraction page all : Task σ Assets).run.run ⟨w, log⟩ =
        (.ok (.ofText page all), ⟨w, log ++ entries⟩) ∧
      entries.Nodup ∧
      (∀ (kind : Kind) (n left : Nat), kind.warning n left ∈ entries ↔
        found kind ≠ moved kind ∧ n = found kind ∧ left = found kind - moved kind) ∧
      (all = true → ∀ (kind : Kind) (n left : Nat), kind.warning n left ∉ entries) := by
  have formed : (Plan.make page all).marks.WellFormed (Plan.make page all).page :=
    Markup.scan_marks_wellFormed page
  refine ⟨fun kind => ((Plan.make page all).found kind).length,
    fun kind => ((Plan.make page all).chosen kind).length, Plan.tallies formed,
    Plan.markup_traced formed, ?_, ?_⟩
  · rintro s debug input document loaded rfl
    exact inspect_stdout loaded debug all
  · intro σ w log
    have warned : ∀ (kind : Kind) (n left : Nat),
        kind.warning n left ∈ (Plan.make page all).notices.map Notice.entry ↔
          ((Plan.make page all).found kind).length ≠ ((Plan.make page all).chosen kind).length ∧
            n = ((Plan.make page all).found kind).length ∧
            left = ((Plan.make page all).found kind).length -
              ((Plan.make page all).chosen kind).length := by
      intro kind n left
      have fewer := (Plan.tallies formed kind).moved_le
      have entry : kind.warning n left = (Notice.leftInline kind n left).entry := rfl
      rw [entry, List.mem_map_of_injective Notice.entry_injective, Plan.mem_notices,
        Nat.lt_iff_le_and_ne, ne_comm]
      simp [fewer]
    refine ⟨_, extraction_logged page all w log,
      (Plan.notices_nodup _).map Notice.entry_injective, warned, ?_⟩
    intro every kind n left
    rw [warned, Plan.chosen_all every]
    simp

def twoStyles : Text := "<style>p</style><script src=\"a\"></script><style>q</style>"

open Coercion in
theorem Report.counts_told_of_twoStyles :
    (Store.desk (Utf8.encode twoStyles)).entry Store.desk.page =
      .ok (["p.html"], .file (.bytes (Utf8.encode twoStyles)) none) ∧
    Utf8.decode (Utf8.encode twoStyles) = twoStyles ∧
    ((Command.inspect false Store.desk.page false).run
        (Store.desk (Utf8.encode twoStyles))).1.stdout =
      "style: 2 inline block(s), 1 to extract\nscript: 0 inline block(s), 0 to extract\n" := by
  have decoded : Utf8.decode (Utf8.encode twoStyles) = twoStyles := by decide +kernel
  obtain ⟨found, moved, tallies, -, shown, -⟩ := counts_told twoStyles false
  have styles : found .style = 2 ∧ moved .style = 1 :=
    ⟨(tallies .style).all_found.symm.trans (by decide +kernel),
      (tallies .style).all_moved.symm.trans (by decide +kernel)⟩
  have scripts : found .script = 0 ∧ moved .script = 0 :=
    ⟨(tallies .script).all_found.symm.trans (by decide +kernel),
      (tallies .script).all_moved.symm.trans (by decide +kernel)⟩
  refine ⟨Store.desk_entry _, decoded, ?_⟩
  have told := shown _ false _ _ (Store.desk_load (Utf8.encode twoStyles)) decoded
  rw [styles.1, styles.2, scripts.1, scripts.2] at told
  exact told.trans (by decide +kernel)

end Unbundle
