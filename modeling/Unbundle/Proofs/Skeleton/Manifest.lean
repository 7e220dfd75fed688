import Unbundle.Proofs.Skeleton.Json
import Unbundle.Proofs.Text.Bytewise
import Unbundle.Skeleton

namespace Unbundle

namespace Literal

theorem escaped_ascii {s : Sym} (ascii : s.code < 0x80) : ∀ c ∈ escaped s, c.code < 0x80 := by
  have all : ∀ n < 0x80, ∀ c ∈ escaped (.scalar (Char.ofNat n)), c.code < 0x80 := by decide
  cases s with
  | scalar c => exact Char.ofNat_toNat c ▸ all c.toNat ascii
  | raw low =>
    simp only [Sym.code] at ascii
    omega

theorem bytewise_ofText (t : Text) : Utf8.bytewise (ofText t) = ofText (Utf8.bytewise t) := by
  have keeps (s : Sym) (beyond : 0x80 ≤ s.code) : escaped s = [s] := by
    refine escaped_plain ?_ ?_ (Nat.le_trans (by decide) beyond)
    · rintro rfl
      exact absurd beyond (by decide)
    · rintro rfl
      exact absurd beyond (by decide)
  rw [ofText, Utf8.bytewise_append, Utf8.bytewise_append,
    Utf8.bytewise_flatMap keeps fun s => escaped_ascii, Utf8.bytewise_ascii (by decide)]
  rfl

def bytewiseField (field : Text × Text) : Text × Text :=
  (Utf8.bytewise field.1, Utf8.bytewise field.2)

theorem bytewise_line {gap : Text} (ascii : ∀ s ∈ gap, s.code < 0x80) (field : Text × Text) :
    Utf8.bytewise (Json.line gap field) = Json.line gap (bytewiseField field) := by
  rw [Json.line, Utf8.bytewise_append, Utf8.bytewise_append, Utf8.bytewise_append,
    Utf8.bytewise_ascii ascii, bytewise_ofText, Utf8.bytewise_ascii (t := ": ") (by decide)]
  rfl

theorem bytewise_lines {gap : Text} (ascii : ∀ s ∈ gap, s.code < 0x80)
    (fields : List (Text × Text)) :
    Utf8.bytewise (Json.lines gap fields) = Json.lines gap (fields.map bytewiseField) := by
  induction fields with
  | nil => rfl
  | cons field fields ih =>
    cases fields with
    | nil =>
      rw [Json.lines_single, bytewise_line ascii]
      exact (Json.lines_single gap _).symm
    | cons next fields =>
      rw [Json.lines_cons, Utf8.bytewise_append, bytewise_line ascii, ← List.singleton_append,
        Utf8.bytewise_append, Utf8.bytewise_append, ih, Utf8.bytewise_ascii (by decide),
        Utf8.bytewise_ascii (by decide)]
      exact (Json.lines_cons gap _ _ _).symm

theorem bytewise_object (depth : Nat) (fields : List (Text × Text)) :
    Utf8.bytewise (object depth fields) = object depth (fields.map bytewiseField) := by
  have spaces (depth : Nat) : ∀ s ∈ Json.indent depth, s.code < 0x80 := by
    intro s member
    obtain rfl := List.eq_of_mem_replicate member
    decide
  rw [Json.object_eq, Json.object_eq, Utf8.bytewise_append, Utf8.bytewise_append,
    Utf8.bytewise_append, Utf8.bytewise_append, bytewise_lines (spaces _),
    Utf8.bytewise_ascii (spaces _), Utf8.bytewise_ascii (by decide),
    Utf8.bytewise_ascii (by decide), Utf8.bytewise_ascii (by decide)]

end Literal

namespace Skeleton

/-- What a manifest says. -/
def package (appName appVersion : Text) : Json :=
  .object [
    ("name", .string appName),
    ("version", .string appVersion),
    ("description", .string (appName ++ " desktop application")),
    ("main", .string "main.js"),
    ("scripts", .object [("start", .string "electron .")])]

theorem package_inj {appName appVersion name version : Text} :
    package name version = package appName appVersion ↔ name = appName ∧ version = appVersion := by
  constructor
  · intro same
    simp only [package, Json.object.injEq, List.cons.injEq, Prod.mk.injEq,
      Json.string.injEq] at same
    exact ⟨same.1.2, same.2.1.2⟩
  · rintro ⟨rfl, rfl⟩
    rfl

theorem manifest_eq (appName appVersion : Text) :
    ∃ inside : Text, manifest appName appVersion = "\x7b" ++ inside ++ "\x7d" ++ "\n" ∧
      Json.Reads ("\x7b" ++ inside ++ "\x7d") (package appName appVersion) := by
  have start : Json.Reads (Literal.object 1 [("start", Literal.ofText "electron .")])
      (.object [("start", .string "electron .")]) :=
    Json.reads_object 1 (.cons ⟨rfl, Json.reads_literal _⟩ .nil)
  refine ⟨_, rfl, Json.reads_object 0 ?_⟩
  exact .cons ⟨rfl, Json.reads_literal _⟩ (.cons ⟨rfl, Json.reads_literal _⟩
    (.cons ⟨rfl, Json.reads_literal _⟩ (.cons ⟨rfl, Json.reads_literal _⟩
      (.cons ⟨rfl, start⟩ .nil))))

theorem bytewise_manifest (appName appVersion : Text) :
    Utf8.bytewise (manifest appName appVersion) =
      manifest (Utf8.bytewise appName) (Utf8.bytewise appVersion) := by
  rw [manifest, Utf8.bytewise_append, Literal.bytewise_object]
  simp only [List.map_cons, List.map_nil, Literal.bytewiseField, Literal.bytewise_ofText,
    Literal.bytewise_object, Utf8.bytewise_append]
  simp (disch := decide) only [Utf8.bytewise_ascii]
  rfl

/-- A manifest is one object and a final newline, and says what it was made from. Two are the same
    only for the same name and version, and have the same bytes only if those have. -/
theorem manifest_tells (appName appVersion : Text) :
    (∃ inside : Text, manifest appName appVersion = "\x7b" ++ inside ++ "\x7d" ++ "\n" ∧
      Json.ofText? ("\x7b" ++ inside ++ "\x7d") = some (package appName appVersion)) ∧
    Json.ofText? (manifest appName appVersion) = some (package appName appVersion) ∧
    ∀ name version,
      (manifest name version = manifest appName appVersion ↔
        name = appName ∧ version = appVersion) ∧
      (Utf8.encode (manifest name version) = Utf8.encode (manifest appName appVersion) ↔
        Utf8.encode name = Utf8.encode appName ∧ Utf8.encode version = Utf8.encode appVersion) := by
  have tells (name version : Text) :
      Json.ofText? (manifest name version) = some (package name version) := by
    obtain ⟨inside, same, reads⟩ := manifest_eq name version
    exact same ▸ Json.ofText?_reads reads (by decide)
  have inj {name version name' version' : Text} :
      manifest name version = manifest name' version' ↔ name = name' ∧ version = version' := by
    refine ⟨fun same => ?_, fun ⟨sameName, sameVersion⟩ => sameName ▸ sameVersion ▸ rfl⟩
    have same := (tells name version).symm.trans (same ▸ tells name' version')
    exact package_inj.mp (Option.some.inj same)
  refine ⟨?_, tells appName appVersion, fun name version => ⟨inj, ?_⟩⟩
  · obtain ⟨inside, same, reads⟩ := manifest_eq appName appVersion
    exact ⟨inside, same, List.append_nil ("\x7b" ++ inside ++ "\x7d" : Text) ▸
      Json.ofText?_reads reads (by decide)⟩
  · rw [← Utf8.bytewise_inj, bytewise_manifest, bytewise_manifest, inj, Utf8.bytewise_inj,
      Utf8.bytewise_inj]

end Skeleton

end Unbundle
