import Unbundle.Proofs.Command.Words

namespace Unbundle

namespace Command

variable {mixed debug all : Bool} {switches : List Switch} {settings : List Setting} {s : Switch}
  {v : Text} {words rest : List Text} {command : Command} {p : Path} {asked : Asked}

section Settings

theorem has_iff : has settings s ↔ s ∈ settings.map Prod.fst := by
  simp [has]

theorem eq_has_iff {b : Bool} : b = has settings s ↔ (b ↔ s ∈ settings.map Prod.fst) := by
  rw [Bool.eq_iff_iff, has_iff]

/-- The last setting of a switch has this value. -/
def Last (settings : List Setting) (s : Switch) (v : Text) : Prop :=
  ∃ before after, settings = before ++ (s, v) :: after ∧ s ∉ after.map Prod.fst

theorem valueOf_eq_some_iff : valueOf? settings s = some v ↔ Last settings s v := by
  rw [valueOf?, List.lookup_eq_some_iff]
  constructor
  · rintro ⟨after, before, whole, others⟩
    refine ⟨before.reverse, after.reverse, ?_, ?_⟩
    · rw [← List.reverse_reverse settings, whole]
      simp
    · rw [List.mem_map]
      rintro ⟨t, member, rfl⟩
      simpa using others t (List.mem_reverse.mp member)
  · rintro ⟨before, after, rfl, others⟩
    refine ⟨after.reverse, before.reverse, by simp, fun t member => bne_iff_ne.mpr ?_⟩
    rintro rfl
    exact others (List.mem_map_of_mem (List.mem_reverse.mp member))

theorem valueOf_eq_none_iff : valueOf? settings s = none ↔ s ∉ settings.map Prod.fst := by
  rw [valueOf?, List.lookup_eq_none_iff]
  constructor
  · intro others member
    obtain ⟨t, listed, rfl⟩ := List.mem_map.mp member
    simpa using others t (List.mem_reverse.mpr listed)
  · intro absent t member
    refine bne_iff_ne.mpr ?_
    rintro rfl
    exact absent (List.mem_map_of_mem (List.mem_reverse.mp member))

/-- Each setting is bound to what it is named for, the last repetition winning. What is not set
    takes its default. -/
structure Binds (settings : List Setting) (asked : Asked) : Prop where
  output : ∀ dir, asked.outputDir = some dir ↔ ∃ v, Last settings .outputDir v ∧ .ofText v = dir
  zip : asked.zip ↔ .zip ∈ settings.map Prod.fst
  name : ∀ t, asked.appName = some t ↔ Last settings .appName t
  version : Last settings .appVersion asked.appVersion ∨
    .appVersion ∉ settings.map Prod.fst ∧ asked.appVersion = "1.0.0"
  all : asked.allBlocks ↔ .allBlocks ∈ settings.map Prod.fst

theorem version_iff {version : Text} :
    version = (valueOf? settings .appVersion).getD Config.defaultVersion ↔
      Last settings .appVersion version ∨
        .appVersion ∉ settings.map Prod.fst ∧ version = "1.0.0" := by
  rw [← valueOf_eq_some_iff, ← valueOf_eq_none_iff]
  cases valueOf? settings .appVersion with
  | none =>
    constructor
    · intro same
      exact .inr ⟨rfl, same⟩
    · rintro (nothing | ⟨-, same⟩)
      · cases nothing
      · exact same
  | some v => simp [eq_comm]

theorem binds_iff : Binds settings asked ↔ asked = askedOf settings asked.input := by
  obtain ⟨input, output, zip, name, version, all⟩ := asked
  have output_iff : output = (valueOf? settings .outputDir).map Path.ofText ↔
      ∀ dir, output = some dir ↔ ∃ v, Last settings .outputDir v ∧ .ofText v = dir := by
    rw [Option.ext_iff]
    simp only [Option.map_eq_some_iff, valueOf_eq_some_iff]
  have name_iff : name = valueOf? settings .appName ↔
      ∀ t, name = some t ↔ Last settings .appName t := by
    rw [Option.ext_iff]
    simp only [valueOf_eq_some_iff]
  rw [askedOf, Asked.mk.injEq, output_iff, name_iff, version_iff, eq_has_iff, eq_has_iff]
  exact ⟨fun b => ⟨rfl, b.output, b.zip, b.name, b.version, b.all⟩,
    fun ⟨_, output, zip, name, version, all⟩ => ⟨output, zip, name, version, all⟩⟩

end Settings

section Lines

/-- The line asks to split a page. -/
inductive AsksSplit : List Text → Bool → Asked → Prop
  | intro {words words' : List Text} {word : Text} {settings settings' : List Setting}
      {debug : Bool} {asked : Asked}
      (front : Reads false [.debug, .help] words settings ("split" :: words'))
      (shown : .help ∉ settings.map Prod.fst) (debugs : debug ↔ .debug ∈ settings.map Prod.fst)
      (back : Reads true [.outputDir, .zip, .appName, .appVersion, .allBlocks, .help] words'
        settings' [word])
      (shown' : .help ∉ settings'.map Prod.fst)
      (argument : asked.input = .ofText word) (binds : Binds settings' asked) :
      AsksSplit words debug asked

/-- The line asks to inspect a page. -/
inductive AsksInspect : List Text → Bool → Path → Bool → Prop
  | intro {words words' : List Text} {word : Text} {settings settings' : List Setting}
      {debug all : Bool}
      (front : Reads false [.debug, .help] words settings ("inspect" :: words'))
      (shown : .help ∉ settings.map Prod.fst) (debugs : debug ↔ .debug ∈ settings.map Prod.fst)
      (back : Reads true [.allBlocks, .help] words' settings' [word])
      (shown' : .help ∉ settings'.map Prod.fst)
      (alls : all ↔ .allBlocks ∈ settings'.map Prod.fst) :
      AsksInspect words debug (.ofText word) all

theorem input_eq_ok_iff : input words = .ok p ↔ ∃ word, words = [word] ∧ p = .ofText word := by
  match words with
  | [] => simp [input]
  | [word] => simp [input, eq_comm]
  | _ :: _ :: _ => simp [input]

theorem readAsked_eq_ok_iff (ask : Path → List Setting → Command) (asked : command ≠ .help) :
    (do
      let (settings, rest) ← readWords true switches words
      if has settings .help then .ok .help
      else .ok (ask (← input rest) settings)) = Except.ok command ↔
      ∃ settings word, Reads true switches words settings [word] ∧
        .help ∉ settings.map Prod.fst ∧ command = ask (.ofText word) settings := by
  rw [bind_ok_iff]
  constructor
  · rintro ⟨⟨settings, rest⟩, read, answer⟩
    dsimp only at answer
    split at answer
    · cases answer
      exact absurd rfl asked
    · rename_i shown
      obtain ⟨p, found, same⟩ := bind_ok_iff.mp answer
      obtain ⟨word, rfl, rfl⟩ := input_eq_ok_iff.mp found
      cases same
      exact ⟨settings, word, readWords_eq_ok_iff.mp read,
        fun listed => shown (has_iff.mpr listed), rfl⟩
  · rintro ⟨settings, word, reads, shown, rfl⟩
    refine ⟨(settings, [word]), readWords_eq_ok_iff.mpr reads, ?_⟩
    dsimp only
    rw [if_neg (fun listed => shown (has_iff.mp listed))]
    rfl

theorem read_eq_ok_iff (asked : command ≠ .help) : read words = .ok command ↔
    ∃ settings name words', Reads false [.debug, .help] words settings (name :: words') ∧
      .help ∉ settings.map Prod.fst ∧
      (name = "split" ∧ readSplit (has settings .debug) words' = .ok command ∨
        name = "inspect" ∧ readInspect (has settings .debug) words' = .ok command) := by
  cases words with
  | nil =>
    constructor
    · intro read
      cases read
    · rintro ⟨settings, name, words', reads, -⟩
      have read := readWords_eq_ok_iff.mpr reads
      rw [readWords] at read
      cases read
  | cons first words =>
    rw [read, if_neg (by simp), bind_ok_iff]
    constructor
    · rintro ⟨⟨settings, rest⟩, front, answer⟩
      dsimp only at answer
      split at answer
      · cases answer
        exact absurd rfl asked
      · rename_i shown
        have shown : .help ∉ settings.map Prod.fst := fun listed => shown (has_iff.mpr listed)
        cases rest with
        | nil => cases answer
        | cons name words' =>
          refine ⟨settings, name, words', readWords_eq_ok_iff.mp front, shown, ?_⟩
          dsimp only at answer
          split at answer
          · rename_i split
            exact .inl ⟨split, answer⟩
          · split at answer
            · rename_i inspect
              exact .inr ⟨inspect, answer⟩
            · obtain ⟨_, _, stops⟩ := bind_ok_iff.mp answer
              cases stops
    · rintro ⟨settings, name, words', reads, shown, asks⟩
      refine ⟨(settings, name :: words'), readWords_eq_ok_iff.mpr reads, ?_⟩
      dsimp only
      rw [if_neg (fun listed => shown (has_iff.mp listed))]
      rcases asks with ⟨rfl, answer⟩ | ⟨rfl, answer⟩
      · rw [if_pos rfl]
        exact answer
      · rw [if_neg (by decide), if_pos rfl]
        exact answer

theorem readSplit_eq_ok_iff (asked : command ≠ .help) : readSplit debug words = .ok command ↔
    ∃ settings word, Reads true splitSwitches words settings [word] ∧
      .help ∉ settings.map Prod.fst ∧
      command = .split debug (askedOf settings (.ofText word)) :=
  readAsked_eq_ok_iff (fun p settings => .split debug (askedOf settings p)) asked

theorem readInspect_eq_ok_iff (asked : command ≠ .help) : readInspect debug words = .ok command ↔
    ∃ settings word, Reads true [.allBlocks, .help] words settings [word] ∧
      .help ∉ settings.map Prod.fst ∧
      command = .inspect debug (.ofText word) (has settings .allBlocks) :=
  readAsked_eq_ok_iff (fun p settings => .inspect debug p (has settings .allBlocks)) asked

theorem read_eq_split_iff : read words = .ok (.split debug asked) ↔
    AsksSplit words debug asked := by
  have split : Command.split debug asked ≠ .help := nofun
  rw [read_eq_ok_iff split]
  simp only [readSplit_eq_ok_iff split, readInspect_eq_ok_iff split]
  constructor
  · rintro ⟨settings, _, words', front, shown, ⟨rfl, settings', word, back, shown', same⟩ |
      ⟨_, _, _, _, _, same⟩⟩
    · obtain ⟨debugs, rfl⟩ := Command.split.inj same
      exact .intro front shown (eq_has_iff.mp debugs) back shown' rfl (binds_iff.mpr rfl)
    · cases same
  · rintro ⟨front, shown, debugs, back, shown', argument, binds⟩
    refine ⟨_, _, _, front, shown, .inl ⟨rfl, _, _, back, shown', ?_⟩⟩
    rw [← eq_has_iff.mpr debugs, ← argument, ← binds_iff.mp binds]

theorem read_eq_inspect_iff : read words = .ok (.inspect debug p all) ↔
    AsksInspect words debug p all := by
  have asked : Command.inspect debug p all ≠ .help := nofun
  rw [read_eq_ok_iff asked]
  simp only [readSplit_eq_ok_iff asked, readInspect_eq_ok_iff asked]
  constructor
  · rintro ⟨settings, _, words', front, shown, ⟨_, _, _, _, _, same⟩ |
      ⟨rfl, settings', word, back, shown', same⟩⟩
    · cases same
    · obtain ⟨debugs, rfl, alls⟩ := Command.inspect.inj same
      exact .intro front shown (eq_has_iff.mp debugs) back shown' (eq_has_iff.mp alls)
  · rintro ⟨front, shown, debugs, back, shown', alls⟩
    refine ⟨_, _, _, front, shown, .inr ⟨rfl, _, _, back, shown', ?_⟩⟩
    rw [← eq_has_iff.mpr debugs, ← eq_has_iff.mpr alls]

/-- What is relied upon in a parser: each setting and the argument is bound to its parameter. -/
structure Understands (parse : List Text → Except UsageError Command) : Prop where
  split : ∀ {words debug asked}, AsksSplit words debug asked →
    parse words = .ok (.split debug asked)
  inspect : ∀ {words debug p all}, AsksInspect words debug p all →
    parse words = .ok (.inspect debug p all)

theorem read_understands : Understands read where
  split := read_eq_split_iff.mpr
  inspect := read_eq_inspect_iff.mpr

end Lines

end Command

end Unbundle
