import JobControl.Proofs.Custody.Starting
/-!
# Registering a job

The entry that is made for a job whose steps have been started follows the attempts to start them,
whichever of the steps never started.
-/

namespace JobControl

private theorem exists_getLast_of_forall₂ {α β : Type} {relation : α → β → Prop} {left : List α}
    {right : List β} (related : List.Forall₂ relation left right) {last : β}
    (found : right.getLast? = some last) :
    ∃ other, left.getLast? = some other ∧ relation other last := by
  induction related with
  | nil =>
      cases found
  | @cons first second others rest head tail inductionHypothesis =>
      cases tail with
      | nil =>
          cases found
          exact ⟨first, rfl, head⟩
      | cons next more =>
          rw [List.getLast?_cons_cons] at found ⊢
          exact inductionHypothesis found

section Begun

variable {started : List StartedStep} {attempts : List Attempt}

/-- The children of the steps are those of the attempts; none has been collected. -/
theorem runningOf_of_begins (begins : List.Forall₂ StartedStep.Begins started attempts) :
    started.filterMap StartedStep.pid? = runningOf started ∧
      runningOf started = uncollectedOf attempts ∧
      (attempts.filterMap fun attempt => attempt.life.pid?) = uncollectedOf attempts := by
  induction begins with
  | nil =>
      exact ⟨rfl, rfl, rfl⟩
  | @cons step attempt rest others first _ inductionHypothesis =>
      obtain ⟨pids, running, attempted⟩ := inductionHypothesis
      unfold runningOf uncollectedOf at *
      unfold StartedStep.Begins at first
      cases state : step.state with
      | running pid =>
          rw [state] at first
          have lives : attempt.life.pid? = some pid ∧ attempt.life.uncollected? = some pid := by
            rcases first with lived | ⟨_, lived⟩
            · rw [lived]
              exact ⟨rfl, rfl⟩
            · rw [lived]
              exact ⟨rfl, rfl⟩
          simp [StartedStep.pid?, StartedStep.running?, state, lives, pids, running, attempted]
      | ended pid status =>
          rw [state] at first
          exact first.elim
      | neverStarted status =>
          rw [state] at first
          obtain ⟨fault, lived, -⟩ := first
          have gone : attempt.life.pid? = none ∧ attempt.life.uncollected? = none := by
            rw [lived]
            exact ⟨rfl, rfl⟩
          simp [StartedStep.pid?, StartedStep.running?, state, gone, pids, running, attempted]

private theorem failedLastStep_of_begins {step : StartedStep} {attempt : Attempt}
    (final : started.getLast? = some step) (begins : step.Begins attempt) :
    (∃ pid, (started.filterMap StartedStep.pid?).getLast? = some pid ∧
        Session.failedLastStep started = none ∧
        (attempt.life = .running pid ∨ ∃ ending, attempt.life = .ended pid ending)) ∨
      ∃ fault, Session.failedLastStep started = some (Outcome.refused fault).status ∧
        attempt.life = .refused fault := by
  obtain ⟨earlier, rfl⟩ := List.getLast?_eq_some_iff.1 final
  unfold Session.failedLastStep
  rw [final]
  unfold StartedStep.Begins at begins
  cases state : step.state with
  | running pid =>
      rw [state] at begins
      have named : step.pid? = some pid := by
        unfold StartedStep.pid?
        rw [state]
      refine Or.inl ⟨pid, ?_, ?_, begins⟩
      · simp [List.filterMap_append, named]
      · simp [named]
  | ended pid status =>
      rw [state] at begins
      exact begins.elim
  | neverStarted status =>
      rw [state] at begins
      obtain ⟨fault, lived, rfl⟩ := begins
      refine Or.inr ⟨fault, ?_, lived⟩
      simp [StartedStep.pid?, StartedStep.status?, state]

end Begun

namespace JobBegun

variable {endings : Ending → Prop} {start : Nat} {job : Job} {started : List StartedStep}
variable {table : List Attempt}

theorem slice_eq (begun : JobBegun endings start job started table) :
    Kernel.slice table start job.steps.length = table.drop start := by
  unfold Kernel.slice
  rw [← begun.runs.length_eq, List.take_length]

theorem exists_entry (begun : JobBegun endings start job started table) (moment : Moment)
    (some_started : started.filterMap StartedStep.pid? ≠ []) :
    ∃ entry, Session.entryOf job (started.filterMap StartedStep.pid?)
        (Session.failedLastStep started) moment = .ok entry ∧
      entry.job = job ∧ entry.processes = runningOf started ∧
      entry.Follows (Kernel.slice table start job.steps.length) := by
  obtain ⟨pids, running, attempted⟩ := runningOf_of_begins begun.begun.begins
  have distinct : (uncollectedOf (table.drop start)).Nodup :=
    begun.begun.orderly.distinct.sublist ((List.drop_sublist start table).filterMap _)
  obtain ⟨last, found⟩ : ∃ last, (started.filterMap StartedStep.pid?).getLast? = some last :=
    ⟨_, List.getLast?_eq_some_getLast some_started⟩
  rw [begun.slice_eq]
  have known : ∀ attempt, (table.drop start).getLast? = some attempt →
      ∃ step, started.getLast? = some step ∧ step.Begins attempt :=
    fun attempt there => exists_getLast_of_forall₂ begun.begun.begins there
  have pidsDistinct : ((table.drop start).filterMap fun attempt => attempt.life.pid?).Nodup := by
    rw [attempted]
    exact distinct
  have named : ∀ process, (started.filterMap StartedStep.pid?).getLast? = some process →
      last = process :=
    fun process final => Option.some.inj (found.symm.trans final)
  unfold Session.entryOf Entry.ofProcesses
  rw [found]
  refine ⟨_, rfl, ?_⟩
  -- What the entry knows of the last attempt depends on whether the last step was started.
  cases failed : Session.failedLastStep started with
  | none =>
      refine ⟨rfl, pids, begun.runs, pidsDistinct, pids.trans running, named, ?_⟩
      intro attempt there
      obtain ⟨step, final, begins⟩ := known attempt there
      rcases failedLastStep_of_begins final begins with
        ⟨pid, lastPid, -, lived⟩ | ⟨fault, status, -⟩
      · obtain rfl : last = pid := named pid lastPid
        rcases lived with runs | ⟨ending, ended⟩
        · rw [runs]
          exact ⟨rfl, rfl⟩
        · rw [ended]
          exact ⟨rfl, rfl⟩
      · rw [failed] at status
        cases status
  | some status =>
      refine ⟨rfl, pids, begun.runs, pidsDistinct, pids.trans running, named, ?_⟩
      intro attempt there
      obtain ⟨step, final, begins⟩ := known attempt there
      rcases failedLastStep_of_begins final begins with
        ⟨pid, -, none, -⟩ | ⟨fault, equal, lived⟩
      · rw [failed] at none
        cases none
      · rw [failed] at equal
        rw [lived]
        exact ⟨rfl, equal⟩

end JobBegun

end JobControl
