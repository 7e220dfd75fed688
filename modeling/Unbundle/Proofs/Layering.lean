import Unbundle.Layering
import Unbundle.Proofs.Markup.Search
import Unbundle.Proofs.Split.Reading

namespace Unbundle

theorem Text.includes_iff {t needle : Text} (some : needle ≠ []) :
    t.includes needle ↔ needle <:+: t := by
  have searches := Markup.find_searches some
  constructor
  · intro found
    obtain ⟨i, there⟩ := Option.isSome_iff_exists.mp found
    have begins : needle <+: t.drop i := List.isPrefixOf_iff_prefix.mp (searches.least there).1
    exact begins.isInfix.trans (List.drop_suffix i t).isInfix
  · rintro ⟨before, after, rfl⟩
    by_contra missing
    have never := searches.never (Option.not_isSome_iff_eq_none.mp missing) before.length
    rw [List.append_assoc, List.drop_left] at never
    exact never (List.isPrefixOf_iff_prefix.mpr (List.prefix_append needle after))

namespace Layering

variable {s : Store} {root dir source : Path} {rule : LayerRule} {t statement : Text}

def Opens (t statement : Text) : Prop :=
  ∃ before blanks rest, t = before ++ blanks ++ statement ++ rest ∧ blanks.isBlank ∧
    ∀ s, before.getLast? = some s → s = .scalar '\n' ∨ s = .scalar '\r'

def Imports (t module : Text) : Prop :=
  Opens t ("import " ++ module) ∨ Opens t ("from " ++ module ++ " import ")

theorem Opens.isInfix (opens : Opens t statement) : statement <:+: t := by
  obtain ⟨before, blanks, rest, rfl, -⟩ := opens
  exact ⟨before ++ blanks, rest, rfl⟩

/-- A source directly in a directory, with its text: a file, or a link that leads to one. -/
inductive Holds (s : Store) (dir : Path) : Text → Prop
  | file {place : Place} {name : Text} {content : Content} {time : Option Int}
      (leads : s.entry dir = .ok (place, .dir)) (called : name.endsWith ".py")
      (stands : s.node? (place ++ [name]) = some (.file content time)) :
      Holds s dir (Utf8.decode content.data)
  | link {place place' : Place} {name target : Text} {content : Content} {time : Option Int}
      (leads : s.entry dir = .ok (place, .dir)) (called : name.endsWith ".py")
      (stands : s.node? (place ++ [name]) = some (.link target))
      (onward : s.entry (dir.child name) = .ok (place', .file content time)) :
      Holds s dir (Utf8.decode content.data)

theorem firstSome_none_iff {α β : Type} {f : α → Except Failure (Option β)} {as : List α} :
    firstSome f as = .ok none ↔ ∀ a ∈ as, f a = .ok none := by
  induction as with
  | nil => simp [firstSome]
  | cons a rest ih =>
    rw [List.forall_mem_cons, ← ih, firstSome]
    cases f a with
    | error failure => simp [bind, Except.bind]
    | ok answer => cases answer <;> simp [bind, Except.bind]

theorem checkSource_none_iff (worded : ∀ word ∈ rule.banned, word ≠ []) :
    checkSource s rule source = .ok none ↔
      ∃ t, sourceText s source = .ok t ∧ ∀ word ∈ rule.banned, ¬ word <:+: t := by
  unfold checkSource
  cases sourceText s source with
  | error failure => simp [bind, Except.bind]
  | ok t =>
    have spared : (rule.banned.find? (t.includes ·)) = none ↔
        ∀ word ∈ rule.banned, ¬ word <:+: t := by
      rw [List.find?_eq_none]
      exact forall₂_congr fun word member => not_congr (Text.includes_iff (worded word member))
    simp [bind, Except.bind, spared]

theorem rules_worded : ∀ rule ∈ rules, ∀ word ∈ rule.banned, word ≠ [] := by decide

/-- Every source under a rule can be read, and none of them holds a word that the rule bans. -/
def Obeys (s : Store) (root : Path) : Prop :=
  ∀ rule ∈ rules, ∀ source ∈ sources s (root.join rule.dir),
    ∃ t, sourceText s source = .ok t ∧ ∀ word ∈ rule.banned, ¬ word <:+: t

theorem check_none_iff : check s root = .ok none ↔
    ∃ place, s.locate root = .ok place ∧ Obeys s place := by
  unfold check
  cases s.locate root with
  | error failure => simp [bind, Except.bind]
  | ok place =>
    have obeys : firstSome (checkRule s place) rules = .ok none ↔ Obeys s place := by
      rw [firstSome_none_iff]
      refine forall₂_congr fun rule listed => ?_
      rw [checkRule, firstSome_none_iff]
      exact forall₂_congr fun source _ => checkSource_none_iff (rules_worded rule listed)
    simp [bind, Except.bind, obeys]

theorem mem_sources {place : Place} {name : Text} (leads : s.entry dir = .ok (place, .dir))
    (called : name.endsWith ".py") (stands : s.node? (place ++ [name]) ≠ none) :
    dir.child name ∈ sources s dir := by
  obtain ⟨⟨_, node⟩, listed, rfl⟩ := List.mem_map.mp (Store.key_of_node (by simp) stands)
  rw [sources, leads]
  have named : (place ++ [name]).getLast?.getD [] = name := by simp
  refine List.mem_filterMap.mpr ⟨_, listed, ?_⟩
  dsimp only
  rw [named, called, beq_self_eq_true, Bool.and_true, if_pos rfl]

theorem sourceText_file {place : Place} {content : Content} {time : Option Int}
    (leads : s.entry source = .ok (place, .file content time))
    (read : sourceText s source = .ok t) : t = Utf8.decode content.data := by
  rw [sourceText, leads] at read
  dsimp only at read
  split at read
  · cases read
  · exact (Except.ok.inj read).symm

theorem Holds.from_source (formed : s.Formed) (holds : Holds s dir t) :
    ∃ source ∈ sources s dir, ∀ t', sourceText s source = .ok t' → t' = t := by
  cases holds with
  | @file place name content time leads called stands =>
    refine ⟨_, mem_sources leads called (by simp [stands]), fun t' read => ?_⟩
    have found := formed.entry_beneath leads stands (Node.file_solid content time)
    rw [show dir.beneath [name] = dir.child name from rfl] at found
    split at found
    · rw [sourceText, found] at read
      cases read
    · exact sourceText_file found read
  | @link place place' name target content time leads called stands onward =>
    exact ⟨_, mem_sources leads called (by simp [stands]), fun t' => sourceText_file onward⟩

theorem Obeys.spares (obeys : Obeys s root) (formed : s.Formed) (listed : rule ∈ rules)
    (holds : Holds s (root.join rule.dir) t) {word : Text} (banned : word ∈ rule.banned) :
    ¬ word <:+: t := by
  obtain ⟨source, member, only⟩ := holds.from_source formed
  obtain ⟨t', read, spared⟩ := obeys rule listed source member
  rw [only t' read] at spared
  exact spared word banned

/-- The check passes exactly if the sources can be read and hold no banned word. So it keeps out
    every import of `typer`, and in the first directory the import of `zipfile` as a whole. That
    names are taken out of `zipfile` is not noticed. -/
theorem check_excludes (formed : s.Formed) :
    (check s root = .ok none ↔ ∃ place, s.locate root = .ok place ∧ Obeys s place) ∧
    (check s root = .ok none → ∃ place, s.locate root = .ok place ∧
      (∀ t, Holds s (place.join "src/html_splitter/application") t →
        ¬ Imports t "typer" ∧ ¬ Opens t "import zipfile") ∧
      ∀ t, Holds s (place.join "src/html_splitter/adapters") t → ¬ Imports t "typer") := by
  refine ⟨check_none_iff, fun passes => ?_⟩
  obtain ⟨place, located, obeys⟩ := check_none_iff.mp passes
  have noTyper {rule : LayerRule} {t : Text} (listed : rule ∈ rules)
      (holds : Holds s (place.join rule.dir) t) : ¬ Imports t "typer" := by
    have words : ∀ rule ∈ rules, ("import typer" : Text) ∈ rule.banned ∧
        ("from typer" : Text) ∈ rule.banned := by decide
    rintro (plain | names)
    · exact obeys.spares formed listed holds (words rule listed).1 plain.isInfix
    · have begins : ("from typer" : Text) <:+: "from " ++ "typer" ++ " import " :=
        (List.prefix_append ("from typer" : Text) " import ").isInfix
      exact obeys.spares formed listed holds (words rule listed).2 (begins.trans names.isInfix)
  refine ⟨place, located, fun t holds => ⟨noTyper (List.mem_cons_self) holds, fun opens => ?_⟩,
    fun t holds => noTyper (List.mem_cons_of_mem _ List.mem_cons_self) holds⟩
  exact obeys.spares formed List.mem_cons_self holds (by decide) opens.isInfix

section Tree

def tree (application adapter : Text) : Store :=
  ⟨[(["src"], .dir), (["src", "html_splitter"], .dir),
    (["src", "html_splitter", "application"], .dir),
    (["src", "html_splitter", "application", "a.py"],
      .file (.bytes (Utf8.encode application)) none),
    (["src", "html_splitter", "adapters"], .dir),
    (["src", "html_splitter", "adapters", "b.py"], .file (.bytes (Utf8.encode adapter)) none)], []⟩

theorem application_dir : Path.join ⟨.slash, []⟩ "src/html_splitter/application" =
    ⟨.slash, ["src", "html_splitter", "application"]⟩ := by decide

theorem adapters_dir : Path.join ⟨.slash, []⟩ "src/html_splitter/adapters" =
    ⟨.slash, ["src", "html_splitter", "adapters"]⟩ := by decide

variable (application adapter : Text)

theorem tree_formed : (tree application adapter).Formed := by
  have places : (tree application adapter).entries.map Prod.fst =
      (tree [] []).entries.map Prod.fst := rfl
  refine Store.formed_of_entries ?_ ?_ ?_ ?_
  · rw [places]
    decide
  · have named : ∀ place ∈ (tree [] []).entries.map Prod.fst, ∀ name ∈ place,
        Store.IsEntryName name := by decide
    intro entry listed
    exact named entry.1 (places ▸ List.mem_map_of_mem listed)
  · simp only [tree, List.forall_mem_cons, List.not_mem_nil, false_implies, implies_true]
    exact ⟨rfl, rfl, rfl, rfl, rfl, rfl, trivial⟩
  · simp [tree]

theorem tree_linkless : (tree application adapter).Linkless :=
  Store.linkless_of_entries (by simp [tree])

theorem tree_located :
    (tree application adapter).locate ⟨.slash, []⟩ = .ok ⟨.slash, []⟩ :=
  Store.locate_place (tree_linkless _ _) (Store.root_leads _)

theorem tree_entry {names : Place} {node : Node} (fits : ¬ Store.Overlong ⟨.slash, []⟩ names)
    (stands : (tree application adapter).node? names = some node) (solid : node.IsSolid) :
    (tree application adapter).entry ⟨.slash, names⟩ = .ok (names, node) :=
  ((tree_formed _ _).entry_beneath (Store.root_leads _) stands solid).trans (if_neg fits)

theorem tree_sources_application : sources (tree application adapter)
    (Path.join ⟨.slash, []⟩ "src/html_splitter/application") =
      [⟨.slash, ["src", "html_splitter", "application", "a.py"]⟩] := by
  rw [sources, application_dir, tree_entry _ _ (by decide) rfl Node.dir_solid]
  rfl

theorem tree_sources_adapters : sources (tree application adapter)
    (Path.join ⟨.slash, []⟩ "src/html_splitter/adapters") =
      [⟨.slash, ["src", "html_splitter", "adapters", "b.py"]⟩] := by
  rw [sources, adapters_dir, tree_entry _ _ (by decide) rfl Node.dir_solid]
  rfl

variable {application adapter} in
theorem tree_reads {names : Place} (fits : ¬ Store.Overlong ⟨.slash, []⟩ names)
    (stands : (tree application adapter).node? names =
      some (.file (.bytes (Utf8.encode t)) none))
    (valid : Utf8.fault? (Utf8.encode t) = none ∧ Utf8.decode (Utf8.encode t) = t) :
    sourceText (tree application adapter) ⟨.slash, names⟩ = .ok t := by
  rw [sourceText, tree_entry _ _ fits stands (Node.file_solid _ _)]
  dsimp only [Content.data]
  rw [valid.1, valid.2]

theorem tree_passes (valid : ∀ t ∈ [application, adapter],
      Utf8.fault? (Utf8.encode t) = none ∧ Utf8.decode (Utf8.encode t) = t)
    (spared : ∀ ruled ∈ rules.zip [application, adapter], ∀ word ∈ ruled.1.banned,
      ruled.2.includes word = false) :
    check (tree application adapter) ⟨.slash, []⟩ = .ok none := by
  refine check_none_iff.mpr ⟨_, tree_located _ _, ?_⟩
  have single {rule : LayerRule} {t : Text} {source : Path}
      (listed : (rule, t) ∈ rules.zip [application, adapter])
      (read : sourceText (tree application adapter) source = .ok t) :
      ∃ t, sourceText (tree application adapter) source = .ok t ∧
        ∀ word ∈ rule.banned, ¬ word <:+: t := by
    have worded := rules_worded rule (List.of_mem_zip listed).1
    refine ⟨t, read, fun word banned infixed => ?_⟩
    have found := (Text.includes_iff (worded word banned)).mpr infixed
    rw [spared _ listed word banned] at found
    cases found
  intro rule listed source member
  rcases List.mem_cons.mp listed with rfl | listed
  · rw [tree_sources_application] at member
    obtain rfl := List.mem_singleton.mp member
    exact single List.mem_cons_self
      (tree_reads (by decide) rfl (valid _ List.mem_cons_self))
  · obtain rfl := List.mem_singleton.mp listed
    rw [tree_sources_adapters] at member
    obtain rfl := List.mem_singleton.mp member
    exact single (List.mem_cons_of_mem _ List.mem_cons_self)
      (tree_reads (by decide) rfl (valid _ (List.mem_cons_of_mem _ List.mem_cons_self)))

theorem tree_holds {names : Place} (name t : Text) (fits : ¬ Store.Overlong ⟨.slash, []⟩ names)
    (dir : (tree application adapter).node? names = some .dir) (called : name.endsWith ".py")
    (stands : (tree application adapter).node? (names ++ [name]) =
      some (.file (.bytes (Utf8.encode t)) none)) (read : Utf8.decode (Utf8.encode t) = t) :
    Holds (tree application adapter) ⟨.slash, names⟩ t := by
  have holds := Holds.file (tree_entry _ _ fits dir Node.dir_solid) called stands
  rwa [Content.data, read] at holds

theorem tree_holds_application (read : Utf8.decode (Utf8.encode application) = application) :
    Holds (tree application adapter) (Path.join ⟨.slash, []⟩ "src/html_splitter/application")
      application := by
  rw [application_dir]
  exact tree_holds _ _ "a.py" _ (by decide) rfl (by decide) rfl read

theorem tree_holds_adapter (read : Utf8.decode (Utf8.encode adapter) = adapter) :
    Holds (tree application adapter) (Path.join ⟨.slash, []⟩ "src/html_splitter/adapters")
      adapter := by
  rw [adapters_dir]
  exact tree_holds _ _ "b.py" _ (by decide) rfl (by decide) rfl read

theorem check_excludes_of_tree :
    (tree "import os\n" "  import zipfile\n").Formed ∧
    check (tree "import os\n" "  import zipfile\n") ⟨.slash, []⟩ = .ok none ∧
    ¬ Imports "import os\n" "typer" ∧ ¬ Opens "import os\n" "import zipfile" ∧
    ¬ Imports "  import zipfile\n" "typer" := by
  have passes := tree_passes "import os\n" "  import zipfile\n" (by decide +kernel)
    (by decide +kernel)
  obtain ⟨place, located, first, second⟩ := (check_excludes (tree_formed _ _)).2 passes
  obtain rfl := Except.ok.inj ((tree_located _ _).symm.trans located)
  have inside := first _ (tree_holds_application _ _ (by decide +kernel))
  exact ⟨tree_formed _ _, passes, inside.1, inside.2,
    second _ (tree_holds_adapter _ _ (by decide +kernel))⟩

/-- A source that takes a name out of `zipfile` passes. -/
theorem check_passes_zipfile :
    (tree "from zipfile import ZipFile\n" "import zipfile\n").Formed ∧
    check (tree "from zipfile import ZipFile\n" "import zipfile\n") ⟨.slash, []⟩ = .ok none ∧
    Holds (tree "from zipfile import ZipFile\n" "import zipfile\n")
      (Path.join ⟨.slash, []⟩ "src/html_splitter/application") "from zipfile import ZipFile\n" ∧
    Imports "from zipfile import ZipFile\n" "zipfile" :=
  ⟨tree_formed _ _, tree_passes _ _ (by decide +kernel) (by decide +kernel),
    tree_holds_application _ _ (by decide +kernel),
    .inr ⟨[], [], "ZipFile\n", by decide, rfl, by simp⟩⟩

end Tree

end Layering

end Unbundle
