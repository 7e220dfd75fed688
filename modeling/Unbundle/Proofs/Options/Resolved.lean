import Unbundle.Options.Config
import Unbundle.Proofs.Lookup

namespace Unbundle

theorem Fields.get?_set (fields : Fields) (name : Text) (v : Value) {other : Text}
    (differ : other ≠ name) : (fields.set name v).get? other = fields.get? other :=
  (lookup_set fields name other v).trans (if_neg differ)

namespace Config

variable {fields fields' : Fields} {config : Config}

theorem nameApp_get? {locate : Locate} (named : nameApp locate fields = .ok fields') {name : Text}
    (differ : name ≠ "app_name") : fields'.get? name = fields.get? name := by
  unfold nameApp at named
  split at named
  · split at named
    · rename_i output _ _
      cases path : namingPath output with
      | error f =>
        rw [path] at named
        cases named
      | ok dir =>
        cases called : dir.appName locate with
        | error f =>
          simp only [path, called, bind, Except.bind] at named
          cases named
        | ok name' =>
          simp only [path, called, bind, Except.bind] at named
          cases named
          exact fields.get?_set _ _ differ
    · cases named
      rfl
  · cases named
    rfl

section Schema

variable [Schema]

theorem asPath_path (field : Text) (p : Path) : asPath field (.path p) = .ok p := by
  rw [asPath, Schema.path_path]
  rfl

theorem ofFields_paths (checked : ofFields fields = .ok config) :
    required fields "input_path" (asPath "input_path") = .ok config.inputPath ∧
      required fields "output_dir" (asPath "output_dir") = .ok config.outputDir := by
  unfold ofFields at checked
  dsimp only at checked
  split at checked
  · rename_i input output _ _ _ _ _
    cases checked
    exact ⟨input, output⟩
  · cases checked

end Schema

end Config

variable [Schema]

theorem Options.resolve_paths {options : Options} {locate : Locate} {input : Path} {config : Config}
    (resolved : options.resolve locate input = .ok config) :
    config.inputPath = input ∧ config.outputDir = options.outputDir.getD input.defaultOutput := by
  unfold resolve Config.check at resolved
  split at resolved
  · split at resolved <;> cases resolved
  · rename_i fields named
    cases checked : Config.ofFields fields with
    | error complaints =>
      rw [checked] at resolved
      cases resolved
    | ok found =>
      rw [checked] at resolved
      cases resolved
      obtain ⟨inputs, outputs⟩ := Config.ofFields_paths checked
      rw [Config.required, Config.nameApp_get? named (by decide)] at inputs outputs
      exact ⟨(Except.ok.inj ((Config.asPath_path _ _).symm.trans inputs)).symm,
        (Except.ok.inj ((Config.asPath_path _ _).symm.trans outputs)).symm⟩

theorem Options.resolve_congr {options : Options} {locate locate' : Locate} {input : Path}
    (same : locate (options.outputDir.getD input.defaultOutput) =
      locate' (options.outputDir.getD input.defaultOutput)) :
    options.resolve locate input = options.resolve locate' input := by
  have output : (options.fields input).get? "output_dir" =
      some (.path (options.outputDir.getD input.defaultOutput)) := rfl
  have named : Config.nameApp locate (options.fields input) =
      Config.nameApp locate' (options.fields input) := by
    simp only [Config.nameApp, output, Config.namingPath, Path.appName, Path.named, same, bind,
      Except.bind]
  rw [resolve, resolve, Config.check, Config.check, named]

end Unbundle
