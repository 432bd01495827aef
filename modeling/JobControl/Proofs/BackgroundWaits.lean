import JobControl.Proofs.Pipeline
/-!
# Waits for a background job

A job in the background is registered and the session goes on, so that nothing of it is waited for.
There is one exception: when a pipe between its later steps cannot be made, the steps that have been
started are waited for like those of any other job, however long they run.
-/

namespace JobControl

open Relation World

/-- New children have numbers under which the registry knows no job. -/
def Registry.GivesFresh (jobs : Registry) : (call : Call) → Kernel → call.Answer → Prop
  | .launch _, _, .ok pid => jobs.lookup? pid = none
  | _, _, _ => True

/-- The kernel in which every new child has such a number. -/
abbrev Kernel.freshly (endings : Ending → Prop) (jobs : Registry) : World Kernel :=
  (Kernel.world endings).restrict jobs.GivesFresh

/-- Since a moment some of the pipes that are needed have been made, at least one, until one was
refused. -/
def Kernel.PipeRefusedSince (before : Kernel) (needed : Nat) (after : Kernel) : Prop :=
  ∃ reason made, 0 < made ∧ made < needed ∧
    after.pipeResults = .error reason :: (List.replicate made (.ok ()) ++ before.pipeResults)

/-- Nothing is waited for unless a pipe has been refused. -/
def Call.WaitsAfterRefusal (before : Kernel) (needed : Nat) (call : Call) (asked : Kernel) : Prop :=
  ∀ pid, call = .wait pid → before.PipeRefusedSince needed asked

/-- Whether a call neither waits for a child nor makes a pipe. -/
def Call.isBrief : Call → Bool
  | .wait _ | .makePipe _ => false
  | _ => true

private theorem Call.isBrief_of_isOfFiles (call : Call) (files : call.isOfFiles = true) :
    call.isBrief = true := by
  cases call <;> first | rfl | cases files

/-- The registry knows no job under the number of the step's child. -/
def StartedStep.IsFresh (jobs : Registry) (step : StartedStep) : Prop :=
  ∀ pid, step.pid? = some pid → jobs.lookup? pid = none

private theorem StartedStep.forall_fresh_append {jobs : Registry} {started : List StartedStep}
    {told : StartedStep} (fresh : ∀ step ∈ started, step.IsFresh jobs)
    (toldFresh : told.IsFresh jobs) : ∀ step ∈ started ++ [told], step.IsFresh jobs := by
  intro step member
  rcases List.mem_append.1 member with earlier | last
  · exact fresh step earlier
  · exact List.mem_singleton.1 last ▸ toldFresh

namespace Kernel

variable {endings : Ending → Prop} {kernel after : Kernel}

private theorem pipeResults_of_drifts (drifts : (Kernel.world endings).Drifts kernel after) :
    after.pipeResults = kernel.pipeResults :=
  congrArg (List.filterMap Answered.pipe?) (Kernel.calls_of_drifts drifts)

private theorem pipeResults_of_answers {call : Call} {given : call.Answer}
    (pipeless : Answered.pipe? ⟨call, given⟩ = none)
    (answers : (Kernel.world endings).answers call kernel given after) :
    after.pipeResults = kernel.pipeResults := by
  obtain ⟨answered, -, rfl⟩ := answers
  exact List.filterMap_cons_none pipeless

private theorem pipeResults_of_makesPipe {call : Call} {given : call.Answer}
    {made : Except Errno Unit} (piped : Answered.pipe? ⟨call, given⟩ = some made)
    (answers : (Kernel.world endings).answers call kernel given after) :
    after.pipeResults = made :: kernel.pipeResults := by
  obtain ⟨answered, -, rfl⟩ := answers
  exact List.filterMap_cons_some piped

end Kernel

section Waits

variable {endings : Ending → Prop} {jobs : Registry} {before kernel : Kernel} {needed : Nat}

/-- A program of brief calls waits for nothing and makes no pipe. -/
theorem Program.Within.brief {α : Type} {good : α → Prop} {program : Program α}
    (within : program.Within (fun call => call.isBrief = true) good) (before kernel : Kernel) :
    (Kernel.world endings).Ensures (Call.WaitsAfterRefusal before needed) program
      (fun result after => good result ∧ after.pipeResults = kernel.pipeResults) kernel := by
  let holds : Kernel → Prop := fun after => after.pipeResults = kernel.pipeResults
  refine Program.Within.ensures ?_ ?_ ?_ within (show holds kernel from rfl)
  · exact fun asked after stirs same =>
      (Kernel.pipeResults_of_drifts (ReflTransGen.single stirs)).trans same
  · rintro call asked brief - pid rfl
    cases brief
  · intro call asked given after brief answers same
    have pipeless : Answered.pipe? ⟨call, given⟩ = none := by
      cases call <;> first | rfl | cases brief
    exact (Kernel.pipeResults_of_answers pipeless answers).trans same

private theorem closeHandle_waits_for_none (handle : Option Handle) (before kernel : Kernel) :
    (Kernel.freshly endings jobs).Ensures (Call.WaitsAfterRefusal before needed)
      (Redirections.closeHandle handle)
      (fun _ after => after.pipeResults = kernel.pipeResults) kernel := by
  have brief := (Redirections.closeHandle_ofFiles handle).mono Call.isBrief_of_isOfFiles
    fun _ good => good
  exact ((Program.Within.brief brief before kernel).restrict _).mono fun _ _ kept => kept.2

/-- Once a pipe has been refused, steps may be waited for. -/
theorem waitForAll_after_refusal (started : List StartedStep)
    (refused : before.PipeRefusedSince needed kernel) :
    (Kernel.world endings).Ensures (Call.WaitsAfterRefusal before needed) (waitForAll started)
      (fun _ _ => True) kernel := by
  refine (Program.Within.ensures ?_ ?_ ?_ (waitForAll_onlyWaits started) refused).mono
    fun _ _ _ => trivial
  · rintro asked after stirs ⟨reason, made, some_made, fewer, results⟩
    refine ⟨reason, made, some_made, fewer, ?_⟩
    rw [Kernel.pipeResults_of_drifts (ReflTransGen.single stirs), results]
  · exact fun call asked _ since pid _ => since
  · rintro call asked given after waits answers ⟨reason, made, some_made, fewer, results⟩
    refine ⟨reason, made, some_made, fewer, ?_⟩
    have pipeless : Answered.pipe? ⟨call, given⟩ = none := by
      cases call <;> first | rfl | cases waits
    rw [Kernel.pipeResults_of_answers pipeless answers, results]

/-! ## Starting steps -/

/-- A step is started without a wait, and its child has a fresh number. -/
theorem startStep_waits_for_none (step : Step) (streams : Redirections) (before kernel : Kernel) :
    (Kernel.freshly endings jobs).Ensures (Call.WaitsAfterRefusal before needed)
      (startStep step streams).run
      (fun outcome after => after.pipeResults = kernel.pipeResults ∧
        ∀ told, outcome = .ok told → told.IsFresh jobs) kernel := by
  unfold startStep
  rw [ensures_run_bind, ensures_run_ask]
  intro asked drifts
  refine ⟨fun pid equal => (nomatch equal), ?_⟩
  rintro given after ⟨answers, granted⟩
  have same : after.pipeResults = kernel.pipeResults :=
    (Kernel.pipeResults_of_answers (by cases given <;> rfl) answers).trans
      (Kernel.pipeResults_of_drifts drifts)
  rw [afterAction_ok]
  cases given with
  | ok pid =>
      refine ⟨same, fun told equal => ?_⟩
      cases equal
      rintro other ⟨rfl⟩
      exact granted
  | error fault =>
      dsimp only
      rw [ensures_run_bind]
      have brief (told : Failure) : (Action.complain told).Makes
          (fun call => call.isBrief = true) fun _ => True :=
        Action.notice_makes rfl fun _ => trivial
      refine ((Program.Within.brief (brief _) before after).restrict _).mono ?_
      rintro (stop | _) last ⟨-, kept⟩
      · exact ⟨kept.trans same, fun told equal => nomatch equal⟩
      · refine ⟨kept.trans same, fun told equal => ?_⟩
        cases equal
        exact fun pid equal => nomatch equal

/-- The last step of a pipeline, or the only step of a job, is started without a wait. -/
theorem startLast_waits_for_none (step : Step) (streams : Redirections)
    {started : List StartedStep} {closing : Program Unit}
    (fresh : ∀ other ∈ started, other.IsFresh jobs)
    (brief : closing.Within (fun call => call.isBrief = true) fun _ => True)
    (before kernel : Kernel) :
    (Kernel.freshly endings jobs).Ensures (Call.WaitsAfterRefusal before needed) (do
        let told ← startStep step streams
        closing
        pure (started ++ [told]) : Action (List StartedStep)).run
      (fun outcome _ => ∀ result, outcome = .ok result → ∀ step ∈ result, step.IsFresh jobs)
      kernel := by
  rw [ensures_run_bind]
  refine (startStep_waits_for_none step streams before kernel).mono ?_
  rintro (stop | told) after ⟨-, toldFresh⟩
  · exact fun result equal => nomatch equal
  · rw [afterAction_ok, ensures_run_bind, ensures_run_lift]
    refine ((Program.Within.brief brief before after).restrict _).mono ?_
    rintro _ closed - result equal
    cases equal
    exact StartedStep.forall_fresh_append fresh (toldFresh told rfl)

/-- When a pipe is refused that is not the first, the steps started before it are waited for. -/
theorem giveUp_waits_after_refusal {source : Option Handle} {started : List StartedStep}
    {reason : Errno}
    (results : kernel.pipeResults =
      .error reason :: (List.replicate started.length (.ok ()) ++ before.pipeResults))
    (fewer : started.length < needed) :
    (Kernel.freshly endings jobs).Ensures (Call.WaitsAfterRefusal before needed) (do
        Redirections.closeHandle source
        let (waited, _) ← (waitForAll started :
          Action (Except Stop (Option Int) × List StartedStep))
        match waited with
        | .error stop => throw stop
        | .ok _ => Action.fail (.pipe reason) : Action (List StartedStep)).run
      (fun outcome _ => ∃ stop, outcome = .error stop) kernel := by
  rw [ensures_run_bind, ensures_run_lift]
  refine (closeHandle_waits_for_none source before kernel).mono fun _ closed kept => ?_
  rw [afterAction_ok, ensures_run_bind, ensures_run_lift]
  have waits : (Kernel.freshly endings jobs).Ensures (Call.WaitsAfterRefusal before needed)
      (waitForAll started) (fun _ _ => True) closed := by
    cases started with
    | nil => exact trivial
    | cons first later =>
        refine (waitForAll_after_refusal _ ?_).restrict _
        exact ⟨reason, _, Nat.succ_pos later.length, fewer, kept.trans results⟩
  refine waits.mono ?_
  rintro ⟨stop | status, others⟩ last -
  · exact ⟨stop, rfl⟩
  · exact ⟨_, rfl⟩

/-- A step is started between its source and a new pipe without a wait. -/
theorem startStep_hands_on {α : Type} {source : Option Handle} {writeEnd : Handle}
    (step : Step) (streams : Redirections) (before kernel : Kernel)
    {next : StartedStep → Action α} {post : Except Stop α → Kernel → Prop}
    (lost : ∀ stop after, post (.error stop) after)
    (goesOn : ∀ told handed, told.IsFresh jobs → handed.pipeResults = kernel.pipeResults →
      (Kernel.freshly endings jobs).Ensures (Call.WaitsAfterRefusal before needed)
        (next told).run post handed) :
    (Kernel.freshly endings jobs).Ensures (Call.WaitsAfterRefusal before needed) (do
        let told ← startStep step streams
        Redirections.closeHandle source
        Action.ask (.close writeEnd)
        next told : Action α).run post kernel := by
  rw [ensures_run_bind]
  refine (startStep_waits_for_none step streams before kernel).mono ?_
  rintro (stop | told) entered ⟨keptEntered, toldFresh⟩
  · exact lost stop entered
  rw [afterAction_ok, ensures_run_bind, ensures_run_lift]
  refine (closeHandle_waits_for_none source before entered).mono fun _ closed keptClosed => ?_
  rw [afterAction_ok, ensures_run_bind]
  change World.Ensures _ _ (liftM (Redirections.closeHandle (some writeEnd)) : Action Unit).run _ _
  rw [ensures_run_lift]
  refine (closeHandle_waits_for_none (some writeEnd) before closed).mono fun _ handed kept => ?_
  exact goesOn told handed (toldFresh told rfl) (kept.trans (keptClosed.trans keptEntered))

/-- The steps of a pipeline are waited for only after a refused pipe, and never if the first pipe
is refused. -/
theorem startPipeline_waits_after_refusal (steps : List Step) {source : Option Handle}
    {started : List StartedStep} (fresh : ∀ step ∈ started, step.IsFresh jobs)
    (results : kernel.pipeResults =
      List.replicate started.length (.ok ()) ++ before.pipeResults)
    (count : started.length + steps.length = needed + 1) :
    (Kernel.freshly endings jobs).Ensures (Call.WaitsAfterRefusal before needed)
      (startPipeline source started steps).run
      (fun outcome _ => ∀ result, outcome = .ok result → ∀ step ∈ result, step.IsFresh jobs)
      kernel := by
  -- One pipe has been made for each step that was started, so that where there is a step to wait
  -- for, the refused pipe was not the first.
  induction steps generalizing source started kernel with
  | nil =>
      intro result equal
      cases equal
      exact fresh
  | cons step others inductionHypothesis =>
      cases others with
      | nil =>
          have brief := (Redirections.closeHandle_ofFiles source).mono Call.isBrief_of_isOfFiles
            fun _ good => good
          exact startLast_waits_for_none step _ fresh brief before kernel
      | cons next rest =>
          rw [startPipeline, ensures_run_bind, ensures_run_ask]
          intro asked drifts
          refine ⟨?waits, ?_⟩
          case waits =>
            intro pid equal
            cases equal
          have resultsAsked := (Kernel.pipeResults_of_drifts drifts).trans results
          rintro given piped ⟨answers, -⟩
          rw [afterAction_ok]
          simp only [List.length_cons] at count
          cases given with
          | error reason =>
              have refused := Kernel.pipeResults_of_makesPipe rfl answers
              rw [resultsAsked] at refused
              refine Ensures.mono (giveUp_waits_after_refusal refused (by omega)) ?_
              rintro _ last ⟨stop, rfl⟩ result equal
              cases equal
          | ok ends =>
              have made := Kernel.pipeResults_of_makesPipe rfl answers
              rw [resultsAsked] at made
              refine startStep_hands_on step _ before _ ?_ fun told handed toldFresh kept => ?_
              · intro stop after result equal
                cases equal
              · refine inductionHypothesis (StartedStep.forall_fresh_append fresh toldFresh)
                  (kept.trans ?_) ?_
                · rw [made, List.length_append, List.length_singleton, List.replicate_succ]
                  rfl
                · simp only [List.length_append, List.length_cons, List.length_nil]
                  omega

private theorem startSteps_waits_after_refusal (job : Job) (streams : Redirections)
    (results : kernel.pipeResults = before.pipeResults) :
    (Kernel.freshly endings jobs).Ensures (Call.WaitsAfterRefusal before job.rest.length)
      (startSteps job streams).run
      (fun outcome _ => ∀ result, outcome = .ok result → ∀ step ∈ result, step.IsFresh jobs)
      kernel := by
  unfold startSteps
  split
  · exact startPipeline_waits_after_refusal job.steps (fun _ member => nomatch member) results
      (Nat.zero_add _)
  · have brief := (Redirections.close_ofFiles streams).mono Call.isBrief_of_isOfFiles
      fun _ good => good
    have none_before : ∀ step ∈ ([] : List StartedStep), step.IsFresh jobs :=
      fun step member => absurd member List.not_mem_nil
    exact startLast_waits_for_none job.first streams none_before brief before kernel

/-! ## Registering -/

private theorem entryOf_pid_mem {job : Job} {pids : List Pid} {failed : Option Int}
    {moment : Moment} {entry : Entry} (made : Session.entryOf job pids failed moment = .ok entry) :
    entry.pid ∈ pids := by
  unfold Session.entryOf Entry.ofProcesses at made
  cases final : pids.getLast? with
  | none =>
      rw [final] at made
      cases made
  | some last =>
      rw [final] at made
      have member := List.mem_of_getLast? final
      cases failed with
      | none =>
          cases made
          exact member
      | some status =>
          cases made
          exact member

private theorem insert_of_fresh {jobs : Registry} {entry : Entry} (room : jobs.isFull = false)
    (fresh : jobs.lookup? entry.pid = none) :
    jobs.insert entry = .ok { jobs with entries := jobs.entries ++ [entry] } := by
  unfold Registry.insert
  rw [room, if_neg Bool.false_ne_true, fresh]

/-- A job whose children have fresh numbers is registered without a wait. -/
theorem register_waits_for_none {session : Session} {job : Job} {steps : List StartedStep}
    (room : session.jobs.isFull = false) (fresh : ∀ step ∈ steps, step.IsFresh session.jobs)
    (before kernel : Kernel) :
    (Kernel.world endings).Achieves (Call.WaitsAfterRefusal before needed)
      (Session.register job steps) session (fun _ _ _ => True) kernel := by
  unfold Session.register
  dsimp only
  split
  · exact trivial
  rw [achieves_bind, achieves_lift, ensures_run_ask]
  intro asked _
  refine ⟨fun pid equal => (nomatch equal), fun moment told _ => ?_⟩
  rw [afterActivity_ok]
  cases made : Session.entryOf job _ _ moment with
  | error breach => exact trivial
  | ok entry =>
      obtain ⟨step, member, named⟩ := List.mem_filterMap.1 (entryOf_pid_mem made)
      dsimp only
      rw [achieves_bind, achieves_get, afterActivity_ok,
        insert_of_fresh room (fresh step member entry.pid named)]
      dsimp only
      rw [achieves_bind, achieves_set, afterActivity_ok]
      split
      · intro writing _
        refine ⟨fun pid equal => (nomatch equal), fun written after _ => ?_⟩
        cases written <;> exact trivial
      · exact trivial

/-! ## Running a job -/

private theorem runProgramJob_waits_after_refusal {session : Session} {job : Job}
    (background : job.background = true) (kernel : Kernel) :
    (Kernel.freshly endings session.jobs).Achieves
      (Call.WaitsAfterRefusal kernel job.rest.length) (Session.runProgramJob job) session
      (fun _ _ _ => True) kernel := by
  unfold Session.runProgramJob
  rw [achieves_bind, achieves_get, afterActivity_ok]
  split
  · exact trivial
  rename_i room
  rw [achieves_bind, achieves_lift]
  have brief := (Session.streamsOf_isOfFiles job).mono Call.isBrief_of_isOfFiles
    fun _ tame => tame
  refine ((Program.Within.brief brief kernel kernel).restrict _).mono ?_
  rintro (stop | streams) opened ⟨-, results⟩
  · exact trivial
  rw [afterActivity_ok, achieves_bind, achieves_lift]
  refine (startSteps_waits_after_refusal job streams results).mono ?_
  rintro (stop | steps) started fresh
  · exact trivial
  rw [afterActivity_ok]
  rw [background] at room
  exact Ensures.restrict
    (register_waits_for_none (by simpa using room) (fresh steps rfl) kernel started) _

end Waits

/-- When a job runs in the background, the session comes to wait for a child only after a pipe of
the job has been refused that was not its first; so that of a job of one or two steps nothing is
ever waited for. -/
theorem background_job_waits_after_refused_pipe {endings : Ending → Prop} {job : Job}
    {session : Session} {kernel after : Kernel} {pid : Pid}
    {next : Except Errno ChildChange → Program (Except Stop Unit × Session)}
    (outside : Builtin.ofName? job.program = none) (background : job.background = true)
    (leads : (Kernel.freshly endings session.jobs).Leads
      ⟨(Session.runJob job).perform session, kernel⟩ ⟨.step (.wait pid) next, after⟩) :
    kernel.PipeRefusedSince job.rest.length after := by
  unfold Session.runJob at leads
  rw [outside] at leads
  have waitsAfter : (Kernel.freshly endings session.jobs).Ensures
      (Call.WaitsAfterRefusal kernel job.rest.length) ((Session.runProgramJob job).perform session)
      (fun _ _ => True) kernel :=
    runProgramJob_waits_after_refusal background kernel
  obtain ⟨answered, drifts, waits⟩ := Ensures.of_leads waitsAfter leads
  exact (waits after drifts).1 pid rfl

/-! ## A job that is waited for -/

/-- A job of three steps in the background. -/
def sleepers : Job where
  input := "sleep | cat | cat &"
  first := { program := "sleep" }
  rest := [{ program := "cat" }, { program := "cat" }]
  background := true

/-- When the second pipe of the job is refused, the session waits for a first step that runs. -/
theorem sleepers_lead_to_wait :
    ∃ next after,
      (Kernel.freshly Ending.IsTold (Session.ofSettings {}).jobs).Leads
        ⟨(Session.runJob sleepers).perform (Session.ofSettings {}), {}⟩
        ⟨.step (.wait ⟨10⟩) next, after⟩ ∧
      after.attempts.map Attempt.life = [.running ⟨10⟩] ∧ after.uncollected = [⟨10⟩] := by
  apply Exists.intro
  apply Exists.intro
  apply And.intro
  · refine Leads.answer (.ok (⟨3⟩, ⟨4⟩)) ⟨⟨_, ⟨rfl, rfl, by decide, rfl⟩, rfl⟩, trivial⟩ ?_
    refine Leads.answer (.ok ⟨10⟩) ⟨⟨_, ⟨by decide, rfl⟩, rfl⟩, rfl⟩ ?_
    refine Leads.answer () ⟨⟨_, rfl, rfl⟩, trivial⟩ ?_
    refine Leads.answer (.error .tooManyOpen) ⟨⟨_, rfl, rfl⟩, trivial⟩ ?_
    refine Leads.answer () ⟨⟨_, rfl, rfl⟩, trivial⟩ ?_
    refine Leads.answer 0 ⟨⟨_, rfl, rfl⟩, trivial⟩ ?_
    exact ReflTransGen.refl
  · exact ⟨rfl, rfl⟩

theorem sleepers_wait_after_refused_pipe :
    ∃ next after,
      (Kernel.freshly Ending.IsTold (Session.ofSettings {}).jobs).Leads
        ⟨(Session.runJob sleepers).perform (Session.ofSettings {}), {}⟩
        ⟨.step (.wait ⟨10⟩) next, after⟩ ∧
      Kernel.PipeRefusedSince {} sleepers.rest.length after := by
  obtain ⟨next, after, leads, -⟩ := sleepers_lead_to_wait
  exact ⟨next, after, leads, background_job_waits_after_refused_pipe rfl rfl leads⟩

/-- It is not so that no job in the background is ever waited for. -/
theorem background_job_can_be_waited_for :
    ¬∀ (job : Job) (session : Session) (kernel after : Kernel) (pid : Pid)
        (next : Except Errno ChildChange → Program (Except Stop Unit × Session)),
      Builtin.ofName? job.program = none → job.background = true →
      (Kernel.freshly Ending.IsTold session.jobs).Leads
          ⟨(Session.runJob job).perform session, kernel⟩ ⟨.step (.wait pid) next, after⟩ →
      pid ∉ uncollectedOf (after.attempts.drop kernel.attempts.length) := by
  intro never
  obtain ⟨next, after, leads, -, uncollected⟩ := sleepers_lead_to_wait
  refine never sleepers _ {} after ⟨10⟩ next rfl rfl leads ?_
  change ⟨10⟩ ∈ after.uncollected
  rw [uncollected]
  exact List.mem_singleton.2 rfl

end JobControl
