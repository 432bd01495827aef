import JobControl.Proofs.Kernel.Attempts
import JobControl.Execution
/-!
# Accounts of background jobs

An entry of the registry is a view of one stretch of the kernel's table: the attempts to start the
steps of its job.  Its processes are those of the stretch that have not been collected, in order;
the status that it keeps is the outcome of the last attempt.  This stays so when a child of the
stretch ends, and when one is collected and the entry is told.
-/

namespace JobControl

/-! ## Outcomes -/

/-- What came of a step in the end. -/
inductive Outcome where
  /-- The program of the step could not be run. -/
  | refused (fault : AccessFault)
  | ended (ending : Ending)
  deriving DecidableEq, Repr

/-- The status of a step of this outcome: 127 if the program was not found, 126 if it could not be
run for another reason, the exit code, or 128 and the number of the signal. -/
def Outcome.status : Outcome → Int
  | .refused (.refused .noEntry) => 127
  | .refused _ => 126
  | .ended (.exited code) => code
  | .ended (.killed signal) => 128 + signal

/-- What came of an attempt, once that is known to the session. -/
def Life.outcome? : Life → Option Outcome
  | .refused fault => some (.refused fault)
  | .running _ => none
  | .ended _ _ => none
  | .collected _ ending => some (.ended ending)

theorem Outcome.status_refused (program : String) (fault : AccessFault) :
    (launchFailure program fault).2 = (Outcome.refused fault).status := by
  unfold launchFailure Outcome.status
  split <;> simp_all

theorem Outcome.status_ended (ending : Ending) :
    (Outcome.ended ending).status = ending.status := by
  cases ending <;> rfl

/-- What came of every attempt is known to the session. -/
def Settled (attempts : List Attempt) : Prop :=
  ∀ attempt ∈ attempts, ∃ outcome, attempt.life.outcome? = some outcome

/-- The status of the last attempt, once it is known. -/
def statusOf (attempts : List Attempt) : Option Int :=
  attempts.getLast?.bind fun attempt => attempt.life.outcome?.map Outcome.status

theorem statusOf_cons {attempt : Attempt} {rest : List Attempt} {outcome : Outcome}
    (lived : attempt.life.outcome? = some outcome) (settled : Settled rest) :
    statusOf (attempt :: rest) = some ((statusOf rest).getD outcome.status) := by
  cases rest with
  | nil =>
      simp [statusOf, lived]
  | cons next others =>
      have nonempty : next :: others ≠ [] := List.cons_ne_nil next others
      obtain ⟨last, known⟩ := settled _ (List.getLast_mem nonempty)
      have found : (next :: others).getLast? = some ((next :: others).getLast nonempty) :=
        List.getLast?_eq_some_getLast nonempty
      have same : statusOf (attempt :: next :: others) = statusOf (next :: others) := by
        unfold statusOf
        rw [List.getLast?_cons_cons]
      rw [same]
      unfold statusOf
      rw [found, Option.bind_some, known, Option.map_some, Option.getD_some]

/-- Whether an attempt is one to start a step. -/
def Attempt.Runs (attempt : Attempt) (step : Step) : Prop :=
  attempt.launch.program = step.program ∧ attempt.launch.arguments = step.arguments

/-! ## Entries that follow the table -/

namespace Entry

/-- What an entry says of its last step is right for the life of the last attempt. -/
def Knows (entry : Entry) : Life → Prop
  | .refused fault =>
      entry.lastStep = none ∧ entry.lastStatus = some (Outcome.refused fault).status
  | .running pid => entry.lastStep = some pid ∧ entry.lastStatus = none
  | .ended pid _ => entry.lastStep = some pid ∧ entry.lastStatus = none
  | .collected pid ending =>
      entry.lastStep = some pid ∧ entry.lastStatus = some (Outcome.ended ending).status

/-- An entry is a right view of the attempts to start the steps of its job. -/
structure Follows (entry : Entry) (attempts : List Attempt) : Prop where
  runs : List.Forall₂ Attempt.Runs attempts entry.job.steps
  distinct : (attempts.filterMap fun attempt => attempt.life.pid?).Nodup
  processes : entry.processes = uncollectedOf attempts
  named : ∀ last, entry.processes.getLast? = some last → entry.pid = last
  known : ∀ last, attempts.getLast? = some last → entry.Knows last.life

end Entry

theorem Turns.runs {old new : Life} {attempts turned : List Attempt} {steps : List Step}
    (turns : Turns old new attempts turned)
    (runs : List.Forall₂ Attempt.Runs attempts steps) :
    List.Forall₂ Attempt.Runs turned steps := by
  induction turns generalizing steps with
  | here _ =>
      cases runs with
      | cons first others => exact .cons first others
  | later _ inductionHypothesis =>
      cases runs with
      | cons first others => exact .cons first (inductionHypothesis others)

theorem uncollectedOf_sublist_pids (attempts : List Attempt) :
    (uncollectedOf attempts).Sublist (attempts.filterMap fun attempt => attempt.life.pid?) := by
  induction attempts with
  | nil =>
      exact List.Sublist.slnil
  | cons attempt rest inductionHypothesis =>
      unfold uncollectedOf at inductionHypothesis ⊢
      cases lived : attempt.life with
      | refused fault =>
          simpa [lived, Life.uncollected?, Life.pid?] using inductionHypothesis
      | running pid =>
          simpa [lived, Life.uncollected?, Life.pid?] using inductionHypothesis
      | ended pid ending =>
          simpa [lived, Life.uncollected?, Life.pid?] using inductionHypothesis
      | collected pid ending =>
          simpa [lived, Life.uncollected?, Life.pid?] using inductionHypothesis.cons pid

namespace Entry

/-- The entry after a process was reaped, whether it is one of the entry's or not. -/
def reaped (pid : Pid) (status : Int) (entry : Entry) : Entry :=
  if pid ∈ entry.processes then entry.afterReaping pid status else entry

@[simp]
theorem reaped_job (pid : Pid) (status : Int) (entry : Entry) :
    (entry.reaped pid status).job = entry.job := by
  unfold reaped afterReaping
  split <;> rfl

theorem reaped_of_not_mem {pid : Pid} {entry : Entry} (absent : pid ∉ entry.processes)
    (status : Int) : entry.reaped pid status = entry :=
  if_neg absent

theorem reaped_processes (pid : Pid) (status : Int) (entry : Entry) :
    (entry.reaped pid status).processes =
      entry.processes.filter fun process => process ≠ pid := by
  by_cases member : pid ∈ entry.processes
  · rw [reaped, if_pos member]
    rfl
  · rw [reaped_of_not_mem member]
    symm
    rw [List.filter_eq_self]
    intro process present
    exact decide_eq_true fun equal => member (equal ▸ present)

namespace Follows

variable {entry : Entry} {attempts turned : List Attempt} {pid : Pid} {ending : Ending}

private theorem processes_nodup (follows : entry.Follows attempts) : entry.processes.Nodup := by
  rw [follows.processes]
  exact follows.distinct.sublist (uncollectedOf_sublist_pids attempts)

/-- Each process of an entry is a child that was started for a step of its job. -/
theorem exists_attempt (follows : entry.Follows attempts) (member : pid ∈ entry.processes) :
    ∃ attempt ∈ attempts, attempt.life.uncollected? = some pid ∧
      ∃ step ∈ entry.job.steps, attempt.Runs step := by
  rw [follows.processes] at member
  obtain ⟨attempt, known, lives⟩ := List.mem_filterMap.1 member
  refine ⟨attempt, known, lives, ?_⟩
  obtain ⟨place, inside, rfl⟩ := List.mem_iff_getElem.1 known
  have within : place < entry.job.steps.length := follows.runs.length_eq ▸ inside
  refine ⟨entry.job.steps[place], List.getElem_mem within, ?_⟩
  exact follows.runs.get inside within

theorem of_ends (follows : entry.Follows attempts)
    (turns : Turns (.running pid) (.ended pid ending) attempts turned) :
    entry.Follows turned where
  runs := turns.runs follows.runs
  distinct := by
    rw [turns.filterMap_eq Life.pid? rfl]
    exact follows.distinct
  processes := by
    rw [follows.processes, turns.uncollected_eq rfl]
  named := follows.named
  known := by
    intro last found
    rcases turns.last_or_before with
      ⟨before, turning, lived, rfl, rfl⟩ | ⟨before, after, same, rfl, rfl, -⟩
    · have knows := follows.known turning (by simp)
      rw [lived] at knows
      obtain rfl : { turning with life := Life.ended pid ending } = last := by
        simpa using found
      exact knows
    · obtain rfl : same = last := by simpa using found
      exact follows.known same (by simp)

private theorem knows_after_other {last : Life} (different : last.pid? ≠ some pid)
    (knows : entry.Knows last) (status : Int) :
    (entry.afterReaping pid status).Knows last := by
  cases last with
  | refused fault =>
      obtain ⟨step, known⟩ := knows
      exact ⟨step, by simp [afterReaping, step, known]⟩
  | running other =>
      obtain ⟨step, known⟩ := knows
      have unequal : other ≠ pid := fun equal => different (congrArg some equal)
      exact ⟨step, by simp [afterReaping, step, known, unequal]⟩
  | ended other _ =>
      obtain ⟨step, known⟩ := knows
      have unequal : other ≠ pid := fun equal => different (congrArg some equal)
      exact ⟨step, by simp [afterReaping, step, known, unequal]⟩
  | collected other _ =>
      obtain ⟨step, known⟩ := knows
      have unequal : other ≠ pid := fun equal => different (congrArg some equal)
      exact ⟨step, by simp [afterReaping, step, known, unequal]⟩

/-- When a child is collected, the entry that is told of it is right again. -/
theorem afterReaping (follows : entry.Follows attempts)
    (turns : Turns (.ended pid ending) (.collected pid ending) attempts turned) :
    (entry.afterReaping pid ending.status).Follows turned where
  runs := turns.runs follows.runs
  distinct := by
    rw [turns.filterMap_eq Life.pid? rfl]
    exact follows.distinct
  processes := by
    have distinct := follows.processes_nodup
    rw [follows.processes] at distinct
    rw [← turns.uncollected_filter distinct, ← follows.processes]
    rfl
  named := by
    intro last found
    change List.getLastD _ _ = last
    rw [List.getLastD_eq_getLast?]
    simp only [Entry.afterReaping] at found
    rw [found]
    rfl
  known := by
    intro last found
    rcases turns.last_or_before with
      ⟨before, turning, lived, rfl, rfl⟩ | ⟨before, after, same, rfl, rfl, inside⟩
    · obtain ⟨step, -⟩ : entry.lastStep = some pid ∧ entry.lastStatus = none := by
        have knows := follows.known turning (by simp)
        rwa [lived] at knows
      obtain rfl : { turning with life := Life.collected pid ending } = last := by
        simpa using found
      exact ⟨step, by simp [Entry.afterReaping, step, Outcome.status_ended]⟩
    · obtain rfl : same = last := by simpa using found
      have different : same.life.pid? ≠ some pid := by
        intro equal
        obtain ⟨attempt, member, lived⟩ := inside.exists_mem
        have earlier : pid ∈ before.filterMap fun attempt => attempt.life.pid? :=
          List.mem_filterMap.2 ⟨attempt, member, by rw [lived]; rfl⟩
        have distinct := follows.distinct
        rw [List.filterMap_append, List.nodup_append] at distinct
        exact distinct.2.2 pid earlier pid (by simp [equal]) rfl
      exact knows_after_other different (follows.known same (by simp)) ending.status

/-- When an entry has no processes left, all its steps are settled and it knows the status of the
last one. -/
theorem settled (follows : entry.Follows attempts) (finished : entry.processes = []) :
    Settled attempts ∧ ∃ status, statusOf attempts = some status ∧
      entry.lastStatus = some status := by
  have gone : ∀ attempt ∈ attempts, attempt.life.uncollected? = none := by
    have empty : uncollectedOf attempts = [] := follows.processes ▸ finished
    exact List.filterMap_eq_nil_iff.1 empty
  have known : Settled attempts := by
    intro attempt member
    have none := gone attempt member
    cases lived : attempt.life with
    | refused fault => exact ⟨.refused fault, rfl⟩
    | collected pid ending => exact ⟨.ended ending, rfl⟩
    | running pid =>
        rw [lived] at none
        cases none
    | ended pid ending =>
        rw [lived] at none
        cases none
  have nonempty : attempts ≠ [] := by
    rintro rfl
    exact entry.job.steps_ne_nil (List.forall₂_nil_left_iff.1 follows.runs)
  have found : attempts.getLast? = some (attempts.getLast nonempty) :=
    List.getLast?_eq_some_getLast nonempty
  obtain ⟨outcome, lived⟩ := known _ (List.getLast_mem nonempty)
  refine ⟨known, outcome.status, ?_, ?_⟩
  · unfold statusOf
    rw [found, Option.bind_some, lived, Option.map_some]
  · have knows := follows.known _ found
    generalize (attempts.getLast nonempty).life = life at lived knows
    cases life with
    | refused fault =>
        cases lived
        exact knows.2
    | collected pid ending =>
        cases lived
        exact knows.2
    | running pid => cases lived
    | ended pid ending => cases lived

end Follows

end Entry

end JobControl
