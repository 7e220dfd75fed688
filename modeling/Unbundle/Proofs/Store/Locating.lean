import Unbundle.Proofs.Store.Naming

namespace Unbundle

theorem Text.splitOn_separates {separator : Sym} {t piece : Text}
    (listed : piece ∈ splitOn separator t) : separator ∉ piece :=
  fun member => (splitOn_mem listed member).2 rfl

namespace Store

variable {s : Store} {p q : Path} {place : Place} {name : Text} {steps : List Text}

/-- What holds of each path that resolving goes through. -/
structure Kept (kept : Path → Prop) : Prop where
  root : kept ⟨.slash, []⟩
  child : ∀ p step, kept p → Path.IsStep step → kept (p.child step)
  above : ∀ p, kept p → kept (above p)
  join : ∀ p t, kept p → kept (p.join t)

theorem settle_keeps {kept : Path → Prop} (keeps : Kept kept) (depth : Nat) (pending : List Path)
    (plain : ∀ step ∈ steps, Path.separator ∉ step) (holds : kept p) :
    kept (s.settle depth pending p steps).1 := by
  have onward {p : Path} (target : Text) (holds : kept p) :
      kept (if Path.rootOf target = .relative then p else ⟨.slash, []⟩) := by
    split
    · exact holds
    · exact keeps.root
  fun_induction settle s depth pending p steps with
  | case1 => exact holds
  | case2 depth pending p step steps dot ih => exact ih (List.forall_mem_cons.mp plain).2 holds
  | case3 depth pending p steps dot ih =>
    exact ih (List.forall_mem_cons.mp plain).2 (keeps.above p holds)
  | case4 depth pending p step steps named notUp linkless ih =>
    rw [List.forall_mem_cons] at plain
    exact ih plain.2 (keeps.child p step holds ⟨named, plain.1⟩)
  | case5 pending p step steps named notUp target link
  | case6 pending p step steps named notUp target link depth loop =>
    rw [List.forall_mem_cons] at plain
    exact keeps.join _ _ (keeps.child p step holds ⟨named, plain.1⟩)
  | case7 pending p step steps named notUp target link depth fresh reached inside led ih =>
    have led := led (fun step => Text.splitOn_separates) (onward target holds)
    rw [inside] at led
    exact ih (List.forall_mem_cons.mp plain).2 led
  | case8 pending p step steps named notUp target link depth fresh reached inside led =>
    have led := led (fun step => Text.splitOn_separates) (onward target holds)
    rw [inside] at led
    exact keeps.join _ _ led

theorem kept_proper : Kept Path.Proper where
  root := nofun
  child _ _ proper isStep := proper.child isStep
  above p proper := by
    unfold Store.above
    split
    · exact proper.child ⟨by decide, by decide⟩
    · exact proper.parent
  join _ t proper := proper.join t

theorem kept_rooted : Kept fun p => p.root ≠ .relative where
  root := Root.noConfusion
  child _ _ rooted _ := rooted
  above p rooted := by
    unfold Store.above
    split <;> exact rooted
  join p t rooted := by
    unfold Path.join
    split
    · exact rooted
    · rename_i absolute
      exact fun relative => absolute relative

theorem start_proper (p : Path) : (start p).Proper := by
  unfold start
  split <;> exact nofun

theorem plain_of_proper (proper : p.Proper) : ∀ step ∈ p.parts, Path.separator ∉ step :=
  fun step member => (proper step member).2

theorem lexical_names (places : ∀ name ∈ place, IsName name)
    (proper : ∀ step ∈ steps, Path.IsStep step) : ∀ name ∈ lexical place steps, IsName name := by
  induction steps generalizing place with
  | nil => exact places
  | cons step steps ih =>
    rw [List.forall_mem_cons] at proper
    rw [lexical]
    split
    · exact ih (fun name member => places name (List.dropLast_subset _ member)) proper.2
    · rename_i notUp
      refine ih (fun name member => ?_) proper.2
      rcases List.mem_append.mp member with before | last
      · exact places name before
      · exact List.mem_singleton.mp last ▸ ⟨proper.1.1, notUp⟩

theorem placeOf_names (formed : s.Formed) (proper : p.Proper)
    (stands : p.root = .relative → s.node? s.cwd ≠ none) : ∀ name ∈ s.placeOf p, IsName name := by
  refine lexical_names (fun name member => ?_) proper
  unfold origin at member
  split at member
  · rename_i relative
    exact (formed.names (stands relative) name member).toIsName
  · cases member

theorem settled_names (formed : s.Formed) (proper : p.Proper)
    (stands : p.root = .relative → s.node? s.cwd ≠ none) :
    ∀ name ∈ s.placeOf (s.settle s.depthLimit [] (start p) p.parts).1, IsName name := by
  have plain := plain_of_proper proper
  have resolved : (s.settle s.depthLimit [] (start p) p.parts).1.Proper :=
    settle_keeps kept_proper _ _ plain (start_proper p)
  refine placeOf_names formed resolved fun relative => ?_
  by_cases started : p.root = .relative
  · exact stands started
  · have rooted : (start p).root ≠ .relative := by
      rw [start, if_neg started]
      exact Root.noConfusion
    exact absurd relative (settle_keeps kept_rooted _ _ plain rooted)

theorem locate_start (located : s.locate p = .ok q) :
    q = s.resolved p ∧ (p.root = .relative → s.node? s.cwd ≠ none) := by
  unfold locate at located
  split at located
  · cases located
  · split at located
    · cases located
    · rename_i rooted
      have stands : p.root = .relative → s.node? s.cwd ≠ none := by
        intro relative missing
        exact rooted (by simp [relative, missing])
      split at located
      · cases located
      · cases located
        exact ⟨rfl, stands⟩

theorem locate_names (formed : s.Formed) (proper : p.Proper) (located : s.locate p = .ok q) :
    q.root = .slash ∧ ∀ name ∈ q.parts, IsName name := by
  obtain ⟨rfl, stands⟩ := locate_start located
  exact ⟨rfl, settled_names formed proper stands⟩

end Store

end Unbundle
