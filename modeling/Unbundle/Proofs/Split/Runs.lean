import Unbundle.Split

namespace Unbundle

namespace Task

variable {σ ε α β : Type}

section Bind

variable {work : ExceptT ε (StateM (Trace σ)) α} {rest : α → ExceptT ε (StateM (Trace σ)) β}
  {t t' : Trace σ}

theorem bind_ok {a : α} (ran : work.run.run t = (.ok a, t')) :
    (work >>= rest).run.run t = (rest a).run.run t' := by
  have split : (work >>= rest).run.run t =
      (ExceptT.bindCont rest (work.run.run t).1).run (work.run.run t).2 := rfl
  rw [split, ran]
  rfl

theorem bind_error {e : ε} (ran : work.run.run t = (.error e, t')) :
    (work >>= rest).run.run t = (.error e, t') := by
  have split : (work >>= rest).run.run t =
      (ExceptT.bindCont rest (work.run.run t).1).run (work.run.run t).2 := rfl
  rw [split, ran]
  rfl

end Bind

/-- In a world the work gives an answer and leaves a world, whatever was logged before. -/
def Ends (work : ExceptT ε (StateM (Trace σ)) α) (w : σ) (answer : Except ε α) (w' : σ) : Prop :=
  ∀ log, ∃ log', work.run.run ⟨w, log⟩ = (answer, ⟨w', log'⟩)

variable {work : ExceptT ε (StateM (Trace σ)) α} {rest : α → ExceptT ε (StateM (Trace σ)) β}
  {w w' w'' : σ}

theorem ends_pure (a : α) (w : σ) : Ends (pure a : ExceptT ε (StateM (Trace σ)) α) w (.ok a) w :=
  fun log => ⟨log, rfl⟩

theorem ends_say (level : Level) (source : Source) (message : Text) (w : σ) :
    Ends (say level source message : Work ε σ Unit) w (.ok ()) w :=
  fun _ => ⟨_, rfl⟩

theorem ends_world (w : σ) : Ends (world : Work ε σ σ) w (.ok w) w := fun log => ⟨log, rfl⟩

theorem ends_become (w w' : σ) : Ends (become w' : Work ε σ Unit) w (.ok ()) w' :=
  fun log => ⟨log, rfl⟩

theorem ends_ofExcept {e answer : Except ε α} (gives : e = answer) (w : σ) :
    Ends (ofExcept e) w answer w :=
  fun log => ⟨log, gives ▸ rfl⟩

theorem ends_fail (f : Failure) (w : σ) : Ends (fail f : Task σ α) w (.error f) w :=
  ends_ofExcept rfl w

theorem Ends.bind {a : α} {answer : Except ε β} (first : Ends work w (.ok a) w')
    (second : Ends (rest a) w' answer w'') : Ends (work >>= rest) w answer w'' := by
  intro log
  obtain ⟨log', ran⟩ := first log
  rw [bind_ok ran]
  exact second log'

theorem Ends.halt {e : ε} (first : Ends work w (.error e) w') :
    Ends (work >>= rest) w (.error e) w' := by
  intro log
  obtain ⟨log', ran⟩ := first log
  exact ⟨log', bind_error ran⟩

theorem Ends.unique {answer answer' : Except ε α} (ends : Ends work w answer w')
    (ends' : Ends work w answer' w'') : answer = answer' ∧ w' = w'' := by
  obtain ⟨log, ran⟩ := ends []
  obtain ⟨log', ran'⟩ := ends' []
  rw [ran, Prod.mk.injEq, Trace.mk.injEq] at ran'
  exact ⟨ran'.1, ran'.2.1⟩

/-- The work fails before it has changed anything. -/
def Halts (work : ExceptT ε (StateM (Trace σ)) α) (w : σ) : Prop := ∃ e, Ends work w (.error e) w

theorem Halts.not_ok {a : α} (halts : Halts work w) : ¬ Ends work w (.ok a) w' := by
  obtain ⟨e, failed⟩ := halts
  exact fun ends => nomatch (failed.unique ends).1

theorem halts_fail (f : Failure) (w : σ) : Halts (fail f : Task σ α) w := ⟨f, ends_fail f w⟩

theorem Ends.halts {a : α} (first : Ends work w (.ok a) w) (second : Halts (rest a) w) :
    Halts (work >>= rest) w := by
  obtain ⟨e, ends⟩ := second
  exact ⟨e, first.bind ends⟩

end Task

namespace Split

variable {ε κ σ α : Type} [Raises ε κ] {stage : Stage} {way : Way}

def reached (stage : Stage) (way : Way) (answer : Except ε α) : Except (Stage × Fate κ) α :=
  answer.mapError fun e => (stage, Raises.fate way e)

theorem during_run {work : Work ε σ α} {t t' : Trace σ} {answer : Except ε α}
    (ran : work.run.run t = (answer, t')) :
    (during stage way work).run.run t = (reached stage way answer, t') := by
  have adapted : (during stage way work).run.run t =
      (reached stage way (work.run.run t).1, (work.run.run t).2) := rfl
  rw [adapted, ran]

theorem ends_during (stage : Stage) (way : Way) {work : Work ε σ α} {w w' : σ}
    {answer : Except ε α} (ends : Task.Ends work w answer w') :
    Task.Ends (during stage way work) w (reached stage way answer) w' := by
  intro log
  obtain ⟨log', ran⟩ := ends log
  exact ⟨log', during_run ran⟩

variable {take : Except Failure Document → Except (Stage × Fate κ) α}

theorem waiting_run {work : Work ε σ α} {t t' : Trace σ} {answer : Except ε α}
    (ran : work.run.run t = (answer, t')) :
    (waiting work take).run.run t = (received take answer, t') := by
  have waited : (waiting work take).run.run t =
      (received take (work.run.run t).1, (work.run.run t).2) := rfl
  rw [waited, ran]

theorem ends_waiting {work : Work ε σ α} {w w' : σ} {answer : Except ε α}
    (ends : Task.Ends work w answer w') :
    Task.Ends (waiting work take) w (received take answer) w' := by
  intro log
  obtain ⟨log', ran⟩ := ends log
  exact ⟨log', waiting_run ran⟩

theorem ends_entering (κ : Type) (stage : Stage) (detail : Text) (w : σ) :
    Task.Ends (entering stage detail : Staged κ σ Unit) w (.ok ()) w :=
  Task.ends_say _ _ _ w

def outcome : Except (Stage × Fate κ) (Document × Manifest) → Except κ Outcome
  | .ok (_, files) => .ok (.done files)
  | .error (stage, .told f) => .ok (.failed stage f)
  | .error (_, .untold _ ends) | .error (_, .lost ends) => .error ends

theorem conclude_run (input : Path) (result : Except (Stage × Fate κ) (Document × Manifest))
    (t : Trace σ) : ∃ log,
      (conclude input result).run t = (outcome result, ⟨t.world, log⟩) := by
  cases result with
  | ok done => exact ⟨_, rfl⟩
  | error failed =>
    obtain ⟨stage, fate⟩ := failed
    cases fate with
    | told f =>
      by_cases expected : f.isExpected
      · refine ⟨t.log ++ [⟨.debug, .splitting,
          "split failed during " ++ stage.name ++ ": " ++ f.message⟩], ?_⟩
        simp only [conclude, expected, if_true]
        rfl
      · refine ⟨t.log ++ [⟨.error, .splitting,
          "unexpected error while splitting " ++ input.toText⟩], ?_⟩
        simp only [conclude, expected, Bool.false_eq_true, if_false]
        rfl
    | untold f ends =>
      by_cases expected : f.isExpected
      · refine ⟨t.log, ?_⟩
        simp only [conclude, expected, if_true]
        rfl
      · refine ⟨t.log ++ [⟨.error, .splitting,
          "unexpected error while splitting " ++ input.toText⟩], ?_⟩
        simp only [conclude, expected, Bool.false_eq_true, if_false]
        rfl
    | lost ends => exact ⟨t.log, rfl⟩

theorem split_run [Schema] {stages : Stages ε σ} {locate : Locate} {input : Path}
    {options : Options}
    {t t' : Trace σ} {result : Except (Stage × Fate κ) (Document × Manifest)}
    (ran : (run stages locate input options).run.run t = (result, t')) :
    ∃ log, (split stages locate input options).run t = (outcome result, ⟨t'.world, log⟩) := by
  have concluded : (split stages locate input options).run t =
      (conclude input ((run stages locate input options).run.run t).1).run
        ((run stages locate input options).run.run t).2 := rfl
  rw [concluded, ran]
  exact conclude_run input result t'

end Split

end Unbundle
