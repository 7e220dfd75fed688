import Unbundle.Options.Coercion
import Unbundle.Proofs.Split.Calls

namespace Unbundle

namespace Script

variable {s : Script} {names : List Text} {Fed : Call → Prop} {locate : Locate} {input : Path}
  {options : Options} {config : Config} {calls : List Call}
  {result : Except (Stage × Fate Escape) (Document × Manifest)}

section Schema

variable [Schema]

end Schema

end Script

namespace Thrown

end Thrown

open Coercion in
def Script.Faults.met (faults : Script.Faults) : Except Escape Outcome :=
  ((split (Script.rehearsal [] .ok faults).stages .ok (.ofText "page.html") {}).run ⟨[], []⟩).1

end Unbundle
