import JobControl.Proofs.FailedJobs.Builtins
/-!
# Failed jobs

A job that fails leaves the session as it was: its registry, the recorded status, the directories
and the request to end are the same, every child that the job started has been collected, and none
was started when files or the limit of the registry stood against it.  Only a failed wait, which
ends the session, leaves more behind.
-/

namespace JobControl

open Relation World

section Failing

variable {kernel : Kernel} {session : Session}

/-- A registry that is not full refuses an entry only because of its name. -/
theorem insert_refuses {registry : Registry} {entry : Entry} {failure : Failure}
    (refused : registry.insert entry = .error failure) (room : registry.isFull = false) :
    ∃ pid, failure = .duplicateJob pid := by
  unfold Registry.insert at refused
  rw [room, if_neg Bool.false_ne_true] at refused
  split at refused
  · cases refused
    exact ⟨_, rfl⟩
  · cases refused

/-- Until the end of a job, what it may still fail with: the session is unchanged and has gone
nowhere, and what it had started is collected once it fails. -/
theorem LeavesAsItWas.of_started {before after : Kernel} {failure : Failure}
    (directory : after.entered = before.entered)
    (collected : uncollectedOf (after.attempts.drop before.attempts.length) = [])
    (late : failure.forestalls = false) : LeavesAsItWas session before failure session after :=
  ⟨rfl, directory, collected, fun early => absurd (early.symm.trans late) Bool.noConfusion⟩

/-- A background job that the registry refuses is stopped, and its children are collected. -/
theorem stopRefused_fails_cleanly {before : Kernel} {pids : List Pid} {failure : Failure}
    (outstanding : Outstanding before.attempts.length pids kernel.attempts)
    (directory : kernel.entered = before.entered) (late : failure.forestalls = false) :
    Kernel.telling.Achieves (fun _ _ => True) (do
        (stopProcesses pids : Action Unit)
        Activity.fail failure : Activity Unit) session
      (FailsCleanly session before) kernel := by
  rw [achieves_bind, achieves_lift]
  have stays := Program.Within.entered_eq (stopProcesses_staysPut pids) kernel
  refine ((stopProcesses_collects outstanding).and stays).mono ?_
  rintro (stop | _) after ⟨collected, directoryAfter⟩
  · exact FailsCleanly.of_fatal collected
  · rw [afterActivity_ok, achieves_fail]
    rintro told equal -
    cases equal
    exact LeavesAsItWas.of_started (directoryAfter.trans directory) collected late

/-- Registering the steps of a background job leaves nothing of it when it fails. -/
theorem register_fails_cleanly {before : Kernel} {job : Job} {steps : List StartedStep}
    (begun : JobBegun Ending.IsTold before.attempts.length job steps kernel.attempts)
    (directory : kernel.entered = before.entered) (room : session.jobs.isFull = false) :
    Kernel.telling.Achieves (fun _ _ => True) (Session.register job steps) session
      (FailsCleanly session before) kernel := by
  unfold Session.register
  dsimp only
  split
  · exact FailsCleanly.of_ok _
  · rename_i some_started
    rw [achieves_bind, achieves_lift, ensures_run_ask]
    intro asked drifts
    refine ⟨trivial, ?_⟩
    intro moment told answers
    rw [afterActivity_ok]
    have begunTold : JobBegun Ending.IsTold before.attempts.length job steps told.attempts := by
      rw [Kernel.attempts_of_plain rfl answers]
      exact begun.of_ages (Kernel.ages_of_drifts drifts)
    have directoryTold : told.entered = before.entered := by
      obtain ⟨answered, rfl, rfl⟩ := answers
      exact (Kernel.entered_of_drifts drifts).trans directory
    cases Session.entryOf job _ _ moment with
    | error breach => exact fun failure equal => nomatch equal
    | ok entry =>
        dsimp only
        rw [achieves_bind, achieves_get, afterActivity_ok]
        cases inserted : session.jobs.insert entry with
        | error failure =>
            obtain ⟨pid, rfl⟩ := insert_refuses inserted room
            exact stopRefused_fails_cleanly begunTold.begun.outstanding directoryTold rfl
        | ok jobs =>
            dsimp only
            rw [achieves_bind, achieves_set, afterActivity_ok]
            split
            · rw [achieves_lift]
              have noticed (text : String) : (Action.notice .output text).Makes (fun _ => True)
                  fun stop => ∃ breach, stop = .breach breach :=
                Action.notice_makes trivial fun reason => ⟨.noticeLost .output reason, rfl⟩
              refine (Program.Within.result_good (noticed _) _).mono ?_
              rintro (stop | _) after breaches failure equal
              · obtain ⟨breach, rfl⟩ := breaches stop rfl
                cases equal
              · cases equal
            · exact FailsCleanly.of_ok _

/-- Waiting for the steps of a job in the foreground does not fail. -/
theorem foreground_succeeds {start : Nat} {steps : List StartedStep}
    (begun : Begun Ending.IsTold start steps kernel.attempts) :
    Kernel.telling.Achieves (fun _ _ => True) (do
        let (waited, _) ← (waitForAll steps :
          Action (Except Stop (Option Int) × List StartedStep))
        match waited with
        | .error stop => throw stop
        | .ok status => Session.recordStatus status) session
      (fun outcome _ _ => outcome = .ok ()) kernel := by
  rw [achieves_bind, achieves_lift, ensures_run_lift]
  refine (waitForAll_waits begun).mono ?_
  rintro ⟨waited, others⟩ after reached
  obtain ⟨rfl, -⟩ := reached.telling
  rw [afterActivity_ok]
  dsimp only
  cases statusOf (after.attempts.drop start) with
  | none => exact rfl
  | some status => exact rfl

private theorem runProgramJob_fails_cleanly (job : Job)
    (orderly : Orderly Ending.IsTold kernel.attempts) :
    Kernel.telling.Achieves (fun _ _ => True) (Session.runProgramJob job) session
      (FailsCleanly session kernel) kernel := by
  unfold Session.runProgramJob
  rw [achieves_bind, achieves_get, afterActivity_ok]
  split
  · exact FailsCleanly.of_length _ rfl rfl
  rename_i room
  rw [achieves_bind, achieves_lift]
  have files := Session.streamsOf_isOfFiles job
  have opens := (Program.Within.entered_eq
    (files.mono Call.staysPut_of_isOfFiles fun _ tame => tame) kernel).and
      (ages_of_plain (Session.streamsOf_isPlain job) kernel)
  refine opens.mono ?_
  rintro (stop | streams) opened ⟨directory, ages⟩
  · exact FailsCleanly.of_length _ directory ages.length_eq
  rw [afterActivity_ok, achieves_bind, achieves_lift]
  have orderlyOpened : Orderly Ending.IsTold opened.attempts :=
    ((Begun.nothing orderly).of_ages ages).orderly
  have starts := ((startSteps_begins job streams orderlyOpened).and
    (startSteps_collects job streams orderlyOpened)).and
      (Program.Within.entered_eq (startSteps_staysPut job streams) opened)
  rw [ages.length_eq] at starts
  refine starts.mono ?_
  rintro (stop | steps) started ⟨⟨begun, collects⟩, stays⟩
  · rintro failure equal -
    cases equal
    obtain ⟨⟨reason, rfl⟩, collected⟩ := collects failure rfl
    exact LeavesAsItWas.of_started (stays.trans directory) collected rfl
  rw [afterActivity_ok]
  cases background : job.background with
  | true =>
      rw [if_pos rfl]
      refine register_fails_cleanly (begun steps rfl) (stays.trans directory) ?_
      rw [background] at room
      simpa using room
  | false =>
      rw [if_neg Bool.false_ne_true]
      refine (foreground_succeeds (begun steps rfl).begun).mono ?_
      rintro _ changed after rfl
      exact FailsCleanly.of_ok _

private theorem runJob_fails_cleanly (job : Job) (orderly : Orderly Ending.IsTold kernel.attempts) :
    Kernel.obliging.Achieves (fun _ _ => True) (Session.runJob job) session
      (FailsCleanly session kernel) kernel := by
  unfold Session.runJob
  cases Builtin.ofName? job.program with
  | none => exact Ensures.restrict (runProgramJob_fails_cleanly job orderly) Kernel.Obliges
  | some builtin => exact builtin_fails_cleanly builtin job.first.arguments

end Failing

theorem LeavesAsItWas.of_drifts {session changed : Session} {kernel answered after : Kernel}
    {failure : Failure} (leaves : LeavesAsItWas session kernel failure changed answered)
    (drifts : Kernel.telling.Drifts answered after) :
    LeavesAsItWas session kernel failure changed after := by
  have ages := Kernel.ages_of_drifts drifts
  refine ⟨leaves.session, ?_, ?_, fun early => ?_⟩
  · exact (Kernel.entered_of_drifts drifts).trans leaves.directory
  · rw [ages.uncollected_drop_eq]
    exact leaves.collected
  · exact ages.length_eq.trans (leaves.unstarted early)

/-- Whatever a session is, and whatever comes of the files, pipes, children and directories that a
job asks for: if the job fails without ending the session, the session is as it was before. -/
theorem runJob_failed_leaves_as_it_was {job : Job} {session changed : Session}
    {kernel after : Kernel} {failure : Failure} (reachable : Kernel.telling.Later {} kernel)
    (leads : Kernel.obliging.Leads ⟨(Session.runJob job).perform session, kernel⟩
      ⟨.done (.error (.failure failure), changed), after⟩)
    (mild : failure.isFatal = false) : LeavesAsItWas session kernel failure changed after := by
  have orderly : Orderly Ending.IsTold kernel.attempts := Orderly.nil.of_later reachable
  obtain ⟨answered, drifts, clean⟩ := Ensures.result (runJob_fails_cleanly job orderly) leads
  exact (clean failure rfl mild).of_drifts drifts

/-- A pipeline whose second pipe is refused has collected its first process and left nothing. -/
theorem runJob_failed_leaves_no_process :
    ∃ job changed after,
      Kernel.obliging.Leads ⟨(Session.runJob job).perform (Session.ofSettings {}), {}⟩
        ⟨.done (.error (.failure (.pipe .tooManyOpen)), changed), after⟩ ∧
      after.attempts.length = 1 ∧
      LeavesAsItWas (Session.ofSettings {}) {} (.pipe .tooManyOpen) changed after := by
  let job : Job :=
    { input := "yes | head | wc"
      first := { program := "yes" }
      rest := [{ program := "head" }, { program := "wc" }] }
  have run : ∃ changed after,
      Kernel.obliging.Leads ⟨(Session.runJob job).perform (Session.ofSettings {}), {}⟩
        ⟨.done (.error (.failure (.pipe .tooManyOpen)), changed), after⟩ ∧
      after.attempts.length = 1 := by
    apply Exists.intro
    apply Exists.intro
    apply And.intro
    · refine Leads.answer (.ok (⟨3⟩, ⟨4⟩)) ⟨⟨_, ⟨rfl, rfl, by decide, rfl⟩, rfl⟩, trivial⟩ ?_
      refine Leads.answer (.ok ⟨10⟩) ⟨⟨_, ⟨by decide, rfl⟩, rfl⟩, trivial⟩ ?_
      refine Leads.answer () ⟨⟨_, rfl, rfl⟩, trivial⟩ ?_
      refine Leads.answer (.error .tooManyOpen) ⟨⟨_, rfl, rfl⟩, trivial⟩ ?_
      refine Leads.answer () ⟨⟨_, rfl, rfl⟩, trivial⟩ ?_
      refine Leads.answer (0 : Nat) ⟨⟨_, rfl, rfl⟩, trivial⟩ ?_
      refine Leads.stir (.childEnds (show (Ending.exited 0).IsTold from rfl) (.here rfl)) ?_
      refine Leads.answer (.ok (.ended (.exited 0)))
        ⟨⟨_, Or.inl ⟨_, _, .here rfl, rfl, rfl⟩, rfl⟩, trivial⟩ ?_
      exact ReflTransGen.refl
    · rfl
  obtain ⟨changed, after, leads, length⟩ := run
  exact ⟨job, changed, after, leads, length,
    runJob_failed_leaves_as_it_was ReflTransGen.refl leads rfl⟩

end JobControl
