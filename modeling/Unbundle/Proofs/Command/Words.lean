import Mathlib.Data.List.TakeWhile
import Unbundle.Command.Arguments
import Unbundle.Proofs.Text.Slice

namespace Unbundle

namespace Switch

theorem long_injective : Function.Injective long := by
  intro s s' same
  cases s <;> cases s' <;> first | rfl | exact absurd same (by decide)

theorem long_dashes (s : Switch) : s.long = "--" ++ s.long.drop 2 := by
  cases s <;> decide

theorem long_named (s : Switch) : s.long.drop 2 ≠ [] := by
  cases s <;> decide

theorem long_free (s : Switch) : .scalar '=' ∉ s.long := by
  cases s <;> decide

variable {switches : List Switch} {s : Switch} {name : Text} {letter : Sym}

theorem find_long_iff : switches.find? (fun t => t.long = name) = some s ↔
    s ∈ switches ∧ s.long = name := by
  constructor
  · intro found
    exact ⟨List.mem_of_find?_eq_some found, by simpa using List.find?_some found⟩
  · rintro ⟨known, rfl⟩
    cases search : switches.find? (fun t => t.long = s.long) with
    | none => simpa using List.find?_eq_none.mp search s known
    | some t =>
      have same : t.long = s.long := by simpa using List.find?_some search
      rw [long_injective same]

theorem ofLetter_iff : ofLetter? switches letter = some s ↔
    s ∈ switches ∧ s = .outputDir ∧ letter = .scalar 'o' := by
  constructor
  · intro found
    exact ⟨List.mem_of_find?_eq_some found, by simpa using List.find?_some found⟩
  · rintro ⟨known, rfl, rfl⟩
    cases search : ofLetter? switches (.scalar 'o') with
    | none => simpa using List.find?_eq_none.mp search .outputDir known
    | some t =>
      have same : t = .outputDir := by simpa using List.find?_some search
      rw [same]

end Switch

namespace Command

variable {mixed : Bool} {switches : List Switch} {settings : List Setting} {setting : Setting}
  {s : Switch} {word name v : Text} {written next : Option Text} {words spelled rest : List Text}

/-- The ways to write a setting. A value stands behind an equals sign, behind the letter or in the
    next word, whatever that word is. -/
inductive Spells (switches : List Switch) : List Text → Setting → Prop
  | bare {s : Switch} (known : s ∈ switches) (bare : s.takesValue = false) :
      Spells switches [s.long] (s, [])
  | apart {s : Switch} {v : Text} (known : s ∈ switches) (takes : s.takesValue) :
      Spells switches [s.long, v] (s, v)
  | joined {s : Switch} {v : Text} (known : s ∈ switches) (takes : s.takesValue) :
      Spells switches [s.long ++ "=" ++ v] (s, v)
  | letter {v : Text} (known : .outputDir ∈ switches) :
      Spells switches ["-o", v] (.outputDir, v)
  | letterJoined {v : Text} (known : .outputDir ∈ switches) (some : v ≠ []) :
      Spells switches ["-o" ++ v] (.outputDir, v)

/-- The settings of a line and its other words. Two dashes end the settings; without `mixed` the
    first other word does so, too. -/
inductive Reads (mixed : Bool) (switches : List Switch) :
    List Text → List Setting → List Text → Prop
  | done : Reads mixed switches [] [] []
  | closed {words : List Text} : Reads mixed switches ("--" :: words) [] words
  | setting {spelled words rest : List Text} {setting : Setting} {settings : List Setting}
      (spells : Spells switches spelled setting)
      (reads : Reads mixed switches words settings rest) :
      Reads mixed switches (spelled ++ words) (setting :: settings) rest
  | word {word : Text} {words rest : List Text} {settings : List Setting} (alternate : mixed = true)
      (plain : isSwitch word = false) (reads : Reads mixed switches words settings rest) :
      Reads mixed switches (word :: words) settings (word :: rest)
  | halt {word : Text} {words : List Text} (alternate : mixed = false)
      (plain : isSwitch word = false) : Reads mixed switches (word :: words) [] (word :: words)

section Word

def behind : Option Text → Text
  | none => []
  | some v => "=" ++ v

theorem exists_name (word : Text) :
    ∃ name written, word = name ++ behind written ∧ .scalar '=' ∉ name := by
  have whole := List.takeWhile_append_dropWhile (p := (· != Sym.scalar '=')) (l := word)
  have free : Sym.scalar '=' ∉ word.takeWhile (· != .scalar '=') := fun member => by
    simpa using List.mem_takeWhile_imp member
  have stops := List.head?_dropWhile_not (· != Sym.scalar '=') word
  cases back : word.dropWhile (· != .scalar '=') with
  | nil =>
    rw [back] at whole
    exact ⟨_, none, whole.symm, free⟩
  | cons s v =>
    rw [back] at whole stops
    obtain rfl : s = .scalar '=' := by simpa using stops
    exact ⟨_, some v, whole.symm, free⟩

theorem takeWhile_name (free : .scalar '=' ∉ name) (written : Option Text) :
    (name ++ behind written).takeWhile (· != .scalar '=') = name := by
  refine Text.takeWhile_exact (fun s member => ?_) fun s first => ?_
  · have other : s ≠ .scalar '=' := fun equals => free (equals ▸ member)
    simpa using other
  · cases written with
    | none => cases first
    | some v =>
      cases first
      rfl

theorem drop_name (name : Text) (written : Option Text) :
    ((name ++ behind written).drop name.length).tail? = written := by
  rw [List.drop_left]
  cases written <;> rfl

theorem readSwitch_known (free : .scalar '=' ∉ name)
    (known : switches.find? (fun s => s.long = name) = some s) (written next : Option Text) :
    readSwitch switches (name ++ behind written) next =
      if s.takesValue then withValue s written next
      else if written.isSome then .error .badOptionUsage
      else .ok ((s, []), false) := by
  rw [readSwitch, takeWhile_name free, drop_name, known]

theorem readSwitch_unknown (free : .scalar '=' ∉ name)
    (unknown : switches.find? (fun s => s.long = name) = none) (written next : Option Text) :
    readSwitch switches (name ++ behind written) next =
      if List.isPrefixOf ("--" : Text) (name ++ behind written) then .error .noSuchOption
      else readLetters switches ((name ++ behind written).drop 1) next := by
  rw [readSwitch, takeWhile_name free, drop_name, unknown]

theorem withValue_cases {usesNext : Bool}
    (read : withValue s written next = .ok (setting, usesNext)) :
    (∃ v, written = some v ∧ setting = (s, v) ∧ usesNext = false) ∨
    written = none ∧ ∃ v, next = some v ∧ setting = (s, v) ∧ usesNext = true := by
  cases written with
  | some v =>
    cases read
    exact .inl ⟨v, rfl, rfl, rfl⟩
  | none =>
    cases next with
    | none => cases read
    | some v =>
      cases read
      exact .inr ⟨rfl, v, rfl, rfl, rfl⟩

theorem readLetters_cases {letters : Text} {usesNext : Bool}
    (read : readLetters switches letters next = .ok (setting, usesNext)) :
    .outputDir ∈ switches ∧ ∃ v, letters = "o" ++ v ∧
      (v ≠ [] ∧ setting = (.outputDir, v) ∧ usesNext = false ∨
        v = [] ∧ ∃ w, next = some w ∧ setting = (.outputDir, w) ∧ usesNext = true) := by
  cases letters with
  | nil => cases read
  | cons letter v =>
    rw [readLetters] at read
    cases found : Switch.ofLetter? switches letter with
    | none =>
      rw [found] at read
      cases read
    | some s =>
      rw [found] at read
      obtain ⟨known, rfl, rfl⟩ := Switch.ofLetter_iff.mp found
      refine ⟨known, v, rfl, ?_⟩
      rcases withValue_cases read with ⟨w, value, same, stays⟩ | ⟨none, w, value⟩
      · cases v with
        | nil => cases value
        | cons s v =>
          cases value
          exact .inl ⟨by simp, same, stays⟩
      · cases v with
        | nil => exact .inr ⟨rfl, w, value⟩
        | cons s v => cases none

end Word

section Switches

variable {s : Switch} {name : Text} {written : Option Text} {usesNext : Bool}

theorem eq_cons_of_head? {w : Text} (first : words.head? = some w) : words = w :: words.drop 1 := by
  cases words with
  | nil => cases first
  | cons v rest =>
    cases first
    rfl

theorem spells_of_known (free : .scalar '=' ∉ name)
    (found : switches.find? (fun s => s.long = name) = some s)
    (read : readSwitch switches (name ++ behind written) words.head? = .ok (setting, usesNext)) :
    ∃ spelled, Spells switches spelled setting ∧
      (name ++ behind written) :: words = spelled ++ if usesNext then words.drop 1 else words := by
  rw [readSwitch_known free found] at read
  obtain ⟨known, rfl⟩ := Switch.find_long_iff.mp found
  split at read
  · rename_i takes
    rcases withValue_cases read with ⟨v, rfl, rfl, rfl⟩ | ⟨rfl, v, value, rfl, rfl⟩
    · exact ⟨_, .joined known takes, by simp [behind]⟩
    · refine ⟨_, .apart known takes, ?_⟩
      rw [eq_cons_of_head? value]
      simp [behind]
  · rename_i bare
    split at read
    · cases read
    · rename_i none
      cases read
      refine ⟨_, .bare known (by simpa using bare), ?_⟩
      rw [Option.not_isSome_iff_eq_none.mp none]
      simp [behind]

theorem spells_of_unknown (dash : isSwitch (name ++ behind written)) (free : .scalar '=' ∉ name)
    (found : switches.find? (fun s => s.long = name) = none)
    (read : readSwitch switches (name ++ behind written) words.head? = .ok (setting, usesNext)) :
    ∃ spelled, Spells switches spelled setting ∧
      (name ++ behind written) :: words = spelled ++ if usesNext then words.drop 1 else words := by
  rw [readSwitch_unknown free found] at read
  split at read
  · cases read
  · obtain ⟨known, v, letters, value⟩ := readLetters_cases read
    have spelled : name ++ behind written = "-o" ++ v := by
      rw [isSwitch] at dash
      cases whole : name ++ behind written with
      | nil => simp [whole] at dash
      | cons s rest =>
        rw [whole] at dash letters
        have first : s = .scalar '-' := by simp at dash; exact dash.1
        rw [first]
        exact congrArg (Sym.scalar '-' :: ·) letters
    rw [spelled]
    rcases value with ⟨some, rfl, rfl⟩ | ⟨rfl, w, value, rfl, rfl⟩
    · exact ⟨_, .letterJoined known some, rfl⟩
    · refine ⟨_, .letter known, ?_⟩
      rw [eq_cons_of_head? value]
      rfl

theorem spells_of_readSwitch (dash : isSwitch word)
    (read : readSwitch switches word words.head? = .ok (setting, usesNext)) :
    ∃ spelled, Spells switches spelled setting ∧
      word :: words = spelled ++ if usesNext then words.drop 1 else words := by
  obtain ⟨name, written, rfl, free⟩ := exists_name word
  cases found : switches.find? (fun s => s.long = name) with
  | some s => exact spells_of_known free found read
  | none => exact spells_of_unknown dash free found read

end Switches

theorem isSwitch_long (s : Switch) (t : Text) : isSwitch (s.long ++ t) := by
  rw [s.long_dashes]
  simp [isSwitch]

theorem long_append_ne (s : Switch) (t : Text) : s.long ++ t ≠ "--" := by
  rw [s.long_dashes, List.append_assoc]
  intro same
  have none : s.long.drop 2 ++ t = [] := List.append_right_eq_self.mp same
  exact s.long_named (List.append_eq_nil_iff.mp none).1

theorem readSwitch_long (known : s ∈ switches) (written next : Option Text) :
    readSwitch switches (s.long ++ behind written) next =
      if s.takesValue then withValue s written next
      else if written.isSome then .error .badOptionUsage
      else .ok ((s, []), false) :=
  readSwitch_known s.long_free (Switch.find_long_iff.mpr ⟨known, rfl⟩) written next

theorem readSwitch_letter (switches : List Switch) (v : Text) (next : Option Text) :
    readSwitch switches ("-o" ++ v) next = readLetters switches ("o" ++ v) next := by
  obtain ⟨name, written, whole, free⟩ := exists_name ("-o" ++ v)
  have unknown : switches.find? (fun s => s.long = name) = none := by
    rw [List.find?_eq_none]
    intro s _ long
    have named : s.long = name := by simpa using long
    rw [← named, s.long_dashes] at whole
    exact absurd (List.cons.inj (List.cons.inj whole).2).1 (by decide)
  rw [whole, readSwitch_unknown free unknown, ← whole]
  rfl

theorem readLetters_o (known : .outputDir ∈ switches) (v : Text) (next : Option Text) :
    readLetters switches (.scalar 'o' :: v) next =
      withValue .outputDir (if v.isEmpty then none else some v) next := by
  rw [readLetters, Switch.ofLetter_iff.mpr ⟨known, rfl, rfl⟩]

def Takes (switches : List Switch) (spelled : List Text) (setting : Setting) : Prop :=
  ∃ word more usesNext, spelled = word :: more ∧ word ≠ "--" ∧ isSwitch word ∧
    ∀ words, readSwitch switches word (more ++ words).head? = .ok (setting, usesNext) ∧
      (if usesNext then (more ++ words).drop 1 else more ++ words) = words

section Takes

variable {more : List Text} {usesNext : Bool}

theorem takes_long (known : s ∈ switches) (written : Option Text)
    (spelt : word = s.long ++ behind written)
    (read : ∀ words : List Text, (if s.takesValue then withValue s written (more ++ words).head?
      else if written.isSome then .error .badOptionUsage
      else .ok ((s, []), false)) = .ok (setting, usesNext))
    (left : ∀ words : List Text,
      (if usesNext then (more ++ words).drop 1 else more ++ words) = words) :
    Takes switches (word :: more) setting := by
  subst spelt
  exact ⟨_, more, usesNext, rfl, long_append_ne s _, isSwitch_long s _,
    fun words => ⟨(readSwitch_long known written _).trans (read words), left words⟩⟩

theorem takes_letter (known : .outputDir ∈ switches)
    (read : ∀ words : List Text, withValue .outputDir (if v.isEmpty then none else some v)
      (more ++ words).head? = .ok (setting, usesNext))
    (left : ∀ words : List Text,
      (if usesNext then (more ++ words).drop 1 else more ++ words) = words) :
    Takes switches (("-o" ++ v) :: more) setting :=
  ⟨_, more, usesNext, rfl, by simp, by simp [isSwitch], fun words =>
    ⟨(readSwitch_letter switches v _).trans ((readLetters_o known v _).trans (read words)),
      left words⟩⟩

end Takes

theorem Spells.takes (spells : Spells switches spelled setting) :
    Takes switches spelled setting := by
  cases spells with
  | @bare s known bare =>
    exact takes_long known none (List.append_nil _).symm (fun _ => by rw [bare]; rfl) fun _ => rfl
  | @apart s v known takes =>
    exact takes_long known none (List.append_nil _).symm (fun _ => if_pos takes) fun _ => rfl
  | @joined s v known takes =>
    exact takes_long known (some v) (List.append_assoc ..) (fun _ => if_pos takes) fun _ => rfl
  | @letter v known => exact takes_letter known (v := []) (fun _ => rfl) fun _ => rfl
  | @letterJoined v known some =>
    obtain ⟨s, rest, rfl⟩ := List.exists_cons_of_ne_nil some
    exact takes_letter known (fun _ => rfl) fun _ => rfl

theorem bind_ok_iff {ε α β : Type} {x : Except ε α} {f : α → Except ε β} {b : β} :
    x >>= f = .ok b ↔ ∃ a, x = .ok a ∧ f a = .ok b := by
  cases x <;> simp [bind, Except.bind]

theorem readWords_dash_iff (unclosed : word ≠ "--") (dash : isSwitch word) :
    readWords mixed switches (word :: words) = .ok (settings, rest) ↔
      ∃ setting usesNext settings',
        readSwitch switches word words.head? = .ok (setting, usesNext) ∧
          readWords mixed switches (if usesNext then words.drop 1 else words) =
            .ok (settings', rest) ∧
          settings = setting :: settings' := by
  rw [readWords, if_neg unclosed, if_pos dash]
  simp only [bind_ok_iff]
  constructor
  · rintro ⟨⟨setting, usesNext⟩, taken, ⟨settings', _⟩, read, ⟨⟩⟩
    exact ⟨setting, usesNext, settings', taken, read, rfl⟩
  · rintro ⟨setting, usesNext, settings', taken, read, rfl⟩
    exact ⟨(setting, usesNext), taken, (settings', rest), read, rfl⟩

theorem readWords_plain_iff (plain : isSwitch word = false) :
    readWords mixed switches (word :: words) = .ok (settings, rest) ↔
      if mixed then ∃ rest', readWords mixed switches words = .ok (settings, rest') ∧
        rest = word :: rest'
      else settings = [] ∧ rest = word :: words := by
  have unclosed : word ≠ "--" := by
    rintro rfl
    cases plain
  rw [readWords, if_neg unclosed, if_neg (by simp [plain])]
  cases mixed with
  | false => simp [eq_comm]
  | true =>
    simp only [if_true, bind_ok_iff]
    constructor
    · rintro ⟨⟨_, rest'⟩, read, ⟨⟩⟩
      exact ⟨rest', read, rfl⟩
    · rintro ⟨rest', read, rfl⟩
      exact ⟨(settings, rest'), read, rfl⟩

theorem reads_of_readWords (read : readWords mixed switches words = .ok (settings, rest)) :
    Reads mixed switches words settings rest := by
  -- Whether the next word is used is known only once the switch is read, so the lemma on spellings
  -- comes before the hypothesis on what is left.
  induction words using readWords.induct mixed generalizing settings rest with
  | case1 =>
    rw [readWords] at read
    cases read
    exact .done
  | case2 words =>
    rw [readWords, if_pos rfl] at read
    cases read
    exact .closed
  | case3 word words unclosed dash ih =>
    obtain ⟨setting, usesNext, settings', taken, onward, rfl⟩ :=
      (readWords_dash_iff unclosed dash).mp read
    obtain ⟨spelled, spells, whole⟩ := spells_of_readSwitch dash taken
    rw [whole]
    exact .setting spells (ih usesNext onward)
  | case4 word words unclosed plain alternate ih =>
    have plain : isSwitch word = false := by simpa using plain
    have read := (readWords_plain_iff plain).mp read
    rw [if_pos alternate] at read
    obtain ⟨rest', onward, rfl⟩ := read
    exact .word alternate plain (ih onward)
  | case5 word words unclosed plain alternate =>
    have plain : isSwitch word = false := by simpa using plain
    have read := (readWords_plain_iff plain).mp read
    rw [if_neg alternate] at read
    obtain ⟨rfl, rfl⟩ := read
    exact .halt (by simpa using alternate) plain

theorem Reads.readWords (reads : Reads mixed switches words settings rest) :
    readWords mixed switches words = .ok (settings, rest) := by
  induction reads with
  | done => rw [Command.readWords]
  | closed => rw [Command.readWords, if_pos rfl]
  | setting spells _ ih =>
    obtain ⟨word, more, usesNext, rfl, unclosed, dash, read⟩ := spells.takes
    obtain ⟨taken, left⟩ := read _
    exact (readWords_dash_iff unclosed dash).mpr ⟨_, usesNext, _, taken, left.symm ▸ ih, rfl⟩
  | word alternate plain _ ih =>
    rw [readWords_plain_iff plain, if_pos alternate]
    exact ⟨_, ih, rfl⟩
  | halt alternate plain =>
    rw [readWords_plain_iff plain, if_neg (by simp [alternate])]
    exact ⟨rfl, rfl⟩

theorem readWords_eq_ok_iff : readWords mixed switches words = .ok (settings, rest) ↔
    Reads mixed switches words settings rest :=
  ⟨reads_of_readWords, Reads.readWords⟩

end Command

end Unbundle
