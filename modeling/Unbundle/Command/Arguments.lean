import Unbundle.Options.Config

namespace Unbundle

inductive UsageError
  | noArguments
  | misuse
  | missingParameter
  | noSuchOption
  | badOptionUsage

def UsageError.title : UsageError → Text
  | .noArguments => "NoArgsIsHelpError"
  | .misuse => "UsageError"
  | .missingParameter => "MissingParameter"
  | .noSuchOption => "NoSuchOption"
  | .badOptionUsage => "BadOptionUsage"

inductive Switch
  | help
  | debug
  | outputDir
  | zip
  | appName
  | appVersion
  | allBlocks
deriving DecidableEq

namespace Switch

def long : Switch → Text
  | .help => "--help"
  | .debug => "--debug"
  | .outputDir => "--output-dir"
  | .zip => "--zip"
  | .appName => "--app-name"
  | .appVersion => "--app-version"
  | .allBlocks => "--all-blocks"

def ofLetter? (switches : List Switch) (letter : Sym) : Option Switch :=
  switches.find? fun s => s = .outputDir && letter = .scalar 'o'

def takesValue : Switch → Bool
  | .outputDir | .appName | .appVersion => true
  | _ => false

end Switch

structure Asked where
  input : Path
  outputDir : Option Path
  zip : Bool
  appName : Option Text
  appVersion : Text
  allBlocks : Bool

def Asked.options (a : Asked) : Options :=
  .typed a.outputDir a.zip a.appName a.appVersion a.allBlocks

inductive Command
  | help
  | split (debug : Bool) (asked : Asked)
  | inspect (debug : Bool) (input : Path) (all : Bool)

namespace Command

abbrev Setting := Switch × Text

/-- The value written behind the switch, or else the next word; and whether that word is used. -/
def withValue (s : Switch) (written next : Option Text) : Except UsageError (Setting × Bool) :=
  match written, next with
  | some v, _ => .ok ((s, v), false)
  | none, some v => .ok ((s, v), true)
  | none, none => .error .badOptionUsage

def readLetters (switches : List Switch) (letters : Text) (next : Option Text) :
    Except UsageError (Setting × Bool) :=
  match letters with
  | [] => .error .noSuchOption
  | letter :: rest =>
    match Switch.ofLetter? switches letter with
    | none => .error .noSuchOption
    | some s => withValue s (if rest.isEmpty then none else some rest) next

def readSwitch (switches : List Switch) (word : Text) (next : Option Text) :
    Except UsageError (Setting × Bool) :=
  let name := word.takeWhile (· != .scalar '=')
  let written := (word.drop name.length).tail?
  match switches.find? fun s => s.long = name with
  | some s =>
    if s.takesValue then withValue s written next
    else if written.isSome then .error .badOptionUsage
    else .ok ((s, []), false)
  | none =>
    if List.isPrefixOf ("--" : Text) word then .error .noSuchOption
    else readLetters switches (word.drop 1) next

def isSwitch (word : Text) : Bool := word.head? == some (.scalar '-') && 1 < word.length

/-- The settings and the words that are none. With `mixed` the two may alternate; without, the
    first word that is no switch ends the switches. -/
def readWords (mixed : Bool) (switches : List Switch) :
    List Text → Except UsageError (List Setting × List Text)
  | [] => .ok ([], [])
  | word :: words =>
    if word = "--" then .ok ([], words)
    else if isSwitch word then do
      let (setting, usesNext) ← readSwitch switches word words.head?
      let (settings, rest) ← readWords mixed switches (if usesNext then words.drop 1 else words)
      .ok (setting :: settings, rest)
    else if mixed then do
      let (settings, rest) ← readWords mixed switches words
      .ok (settings, word :: rest)
    else .ok ([], word :: words)
termination_by words => words.length
decreasing_by
  · rw [List.length_cons]
    split
    · rw [List.length_drop]
      omega
    · omega
  · simp

def has (settings : List Setting) (s : Switch) : Bool := settings.any fun (t, _) => t = s

def valueOf? (settings : List Setting) (s : Switch) : Option Text :=
  settings.reverse.lookup s

def input (words : List Text) : Except UsageError Path :=
  match words with
  | [] => .error .missingParameter
  | [word] => .ok (.ofText word)
  | _ => .error .misuse

def splitSwitches : List Switch := [.outputDir, .zip, .appName, .appVersion, .allBlocks, .help]

def askedOf (settings : List Setting) (input : Path) : Asked where
  input
  outputDir := (valueOf? settings .outputDir).map Path.ofText
  zip := has settings .zip
  appName := valueOf? settings .appName
  appVersion := (valueOf? settings .appVersion).getD Config.defaultVersion
  allBlocks := has settings .allBlocks

def readSplit (debug : Bool) (words : List Text) : Except UsageError Command := do
  let (settings, rest) ← readWords true splitSwitches words
  if has settings .help then .ok .help
  else .ok (.split debug (askedOf settings (← input rest)))

def readInspect (debug : Bool) (words : List Text) : Except UsageError Command := do
  let (settings, rest) ← readWords true [.allBlocks, .help] words
  if has settings .help then .ok .help
  else .ok (.inspect debug (← input rest) (has settings .allBlocks))

def read (words : List Text) : Except UsageError Command := do
  if words.isEmpty then .error .noArguments
  else
    let (settings, rest) ← readWords false [.debug, .help] words
    let debug := has settings .debug
    if has settings .help then .ok .help
    else
      match rest with
      | [] => .error .misuse
      | name :: words =>
        if name = "split" then readSplit debug words
        else if name = "inspect" then readInspect debug words
        else do
          let _ ← readWords false [.debug, .help] (name :: words)
          .error .misuse

end Command

end Unbundle
