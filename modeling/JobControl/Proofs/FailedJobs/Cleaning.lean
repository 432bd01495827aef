import JobControl.Proofs.Custody.Line
/-!
# Cleaning up after a job

When a job cannot go on after some of its steps have been started, their children are collected
before the failure is told: a pipeline without a pipe waits for those that it has started, and a
job that the registry refuses is stopped.  Nothing of this enters a directory.
-/

namespace JobControl

open Relation World

/-! ## The working directory -/

/-- The directory that an answer let the session enter. -/
def Answered.entered? : Answered → Option RawText
  | ⟨.changeDirectory path, .ok _⟩ => some path
  | _ => none

/-- The directories that the session has entered, the latest first. -/
def Kernel.entered (kernel : Kernel) : List RawText :=
  kernel.calls.filterMap Answered.entered?

/-- Whether a call leaves the session in its working directory, whatever the answer. -/
def Call.staysPut : Call → Bool
  | .changeDirectory _ => false
  | _ => true

theorem Call.staysPut_of_isOfFiles (call : Call) (files : call.isOfFiles = true) :
    call.staysPut = true := by
  cases call <;> first | rfl | cases files

theorem Call.staysPut_of_isOfPlaces (call : Call) (places : call.isOfPlaces = true) :
    call.staysPut = true := by
  cases call <;> first | rfl | cases places

private theorem Answered.entered?_of_staysPut {call : Call} (stays : call.staysPut = true)
    (given : call.Answer) : Answered.entered? ⟨call, given⟩ = none := by
  cases call <;> first | rfl | cases stays

theorem Kernel.entered_of_drifts {endings : Ending → Prop} {kernel after : Kernel}
    (drifts : (Kernel.world endings).Drifts kernel after) : after.entered = kernel.entered :=
  congrArg (List.filterMap Answered.entered?) (Kernel.calls_of_drifts drifts)

/-- A program that does not ask for another directory stays where it is. -/
theorem Program.Within.entered_eq {α : Type} {good : α → Prop} {program : Program α}
    (stays : program.Within (fun call => call.staysPut = true) good) (kernel : Kernel) :
    Kernel.telling.Ensures (fun _ _ => True) program
      (fun _ after => after.entered = kernel.entered) kernel := by
  let holds : Kernel → Prop := fun after => after.entered = kernel.entered
  refine (Program.Within.ensures ?_ (fun _ _ _ _ => trivial) ?_ stays
    (show holds kernel from rfl)).mono fun _ _ reached => reached.2
  · exact fun before after stirs same =>
      (Kernel.entered_of_drifts (ReflTransGen.single stirs)).trans same
  · rintro call before given _ allowed ⟨answered, responds, rfl⟩ same
    refine Eq.trans ?_ same
    exact List.filterMap_cons_none (Answered.entered?_of_staysPut allowed given)

/-- An action whose calls leave the session where it is. -/
abbrev Action.StaysPut {α : Type} (action : Action α) : Prop :=
  action.Makes (fun call => call.staysPut = true) fun _ => True

section StaysPut

variable {α : Type}

private theorem startStep_staysPut (step : Step) (streams : Redirections) :
    (startStep step streams).StaysPut := by
  refine Action.Makes.bind (Action.makes_ask rfl) fun answer => ?_
  cases answer with
  | ok pid => exact Action.makes_pure _
  | error fault =>
      exact Action.Makes.bind (Action.notice_makes rfl fun _ => trivial)
        fun _ => Action.makes_pure _

private theorem closeHandle_staysPut (handle : Option Handle) :
    (liftM (Redirections.closeHandle handle) : Action Unit).StaysPut :=
  Action.makes_lift ((Redirections.closeHandle_ofFiles handle).mono Call.staysPut_of_isOfFiles
    fun _ good => good)

private theorem startPipeline_staysPut (steps : List Step) (source : Option Handle)
    (started : List StartedStep) : (startPipeline source started steps).StaysPut := by
  induction steps generalizing source started with
  | nil => exact Action.makes_pure _
  | cons step others inductionHypothesis =>
      cases others with
      | nil =>
          refine Action.Makes.bind (startStep_staysPut step _) fun told => ?_
          exact Action.Makes.bind (closeHandle_staysPut source) fun _ => Action.makes_pure _
      | cons next rest =>
          refine Action.Makes.bind (Action.makes_ask rfl) fun answer => ?_
          cases answer with
          | error reason =>
              refine Action.Makes.bind (closeHandle_staysPut source) fun _ => ?_
              refine Action.Makes.bind (Action.makes_lift ?_) fun waited => ?_
              · refine (waitForAll_onlyWaits started).mono ?_ fun _ good => good
                intro call waits
                cases call <;> first | rfl | cases waits
              · obtain ⟨stop | status, others⟩ := waited
                · exact Action.makes_throw trivial
                · exact Action.makes_throw trivial
          | ok ends =>
              refine Action.Makes.bind (startStep_staysPut step _) fun told => ?_
              refine Action.Makes.bind (closeHandle_staysPut source) fun _ => ?_
              refine Action.Makes.bind (Action.makes_ask rfl) fun _ => ?_
              exact inductionHypothesis _ _

theorem startSteps_staysPut (job : Job) (streams : Redirections) :
    (startSteps job streams).StaysPut := by
  unfold startSteps
  split
  · exact startPipeline_staysPut job.steps none []
  · refine Action.Makes.bind (startStep_staysPut job.first streams) fun told => ?_
    refine Action.Makes.bind (Action.makes_lift ?_) fun _ => Action.makes_pure _
    exact (Redirections.close_ofFiles streams).mono Call.staysPut_of_isOfFiles
      fun _ good => good

private theorem sendShutdown_staysPut (pids : List Pid) :
    (sendShutdown pids).Only fun call => call.staysPut = true := by
  induction pids with
  | nil => exact trivial
  | cons pid rest inductionHypothesis => exact ⟨rfl, fun _ => inductionHypothesis⟩

theorem stopProcesses_staysPut (pids : List Pid) : (stopProcesses pids).StaysPut := by
  refine Action.Makes.bind (Action.makes_lift (sendShutdown_staysPut pids)) fun _ => ?_
  exact Action.Makes.bind
    (waitForProcesses_makes (by rfl) (fun _ => rfl) (fun _ => trivial) _ _ pids)
    fun _ => Action.makes_pure _

end StaysPut

/-! ## What a failed job leaves -/

/-- Whether the failure stands against starting anything: files that cannot be opened as the job
says, or a registry that is full. -/
def Failure.forestalls : Failure → Bool
  | .redirectionConflict | .fileNotFound _ | .notWritable _ | .access _ => true
  | .tooManyBackgroundJobs _ => true
  | _ => false

/-- The session and what it can tell of the system are as they were before a job that failed. -/
structure LeavesAsItWas (session : Session) (kernel : Kernel) (failure : Failure)
    (changed : Session) (after : Kernel) : Prop where
  session : changed = session
  directory : after.entered = kernel.entered
  collected : uncollectedOf (after.attempts.drop kernel.attempts.length) = []
  unstarted : failure.forestalls = true → after.attempts.length = kernel.attempts.length

/-- If the outcome is a failure that does not end the session, nothing is left of it. -/
def FailsCleanly (session : Session) (kernel : Kernel) (outcome : Except Stop Unit)
    (changed : Session) (after : Kernel) : Prop :=
  ∀ failure, outcome = .error (.failure failure) → failure.isFatal = false →
    LeavesAsItWas session kernel failure changed after

theorem FailsCleanly.of_ok {session changed : Session} {kernel after : Kernel} (result : Unit) :
    FailsCleanly session kernel (.ok result) changed after :=
  fun _ equal => nomatch equal

theorem FailsCleanly.of_fatal {session changed : Session} {kernel after : Kernel} {stop : Stop}
    (fatal : stop.isFatal = true) : FailsCleanly session kernel (.error stop) changed after := by
  rintro failure equal mild
  cases equal
  exact absurd (fatal.symm.trans mild) Bool.noConfusion

/-- A job that has started nothing and gone nowhere has left nothing. -/
theorem FailsCleanly.of_length {session : Session} {kernel after : Kernel}
    (outcome : Except Stop Unit) (directory : after.entered = kernel.entered)
    (length : after.attempts.length = kernel.attempts.length) :
    FailsCleanly session kernel outcome session after := by
  refine fun failure _ _ => ⟨rfl, directory, ?_, fun _ => length⟩
  rw [← length, List.drop_length]
  rfl

/-! ## Children to be collected -/

/-- Of the children that were started from one attempt on, only some have not been collected. -/
structure Outstanding (start : Nat) (pids : List Pid) (table : List Attempt) : Prop where
  orderly : Orderly Ending.IsTold table
  only : ∀ pid ∈ uncollectedOf (table.drop start), pid ∈ pids

theorem Ages.uncollected_drop_eq {endings : Ending → Prop} {before after : List Attempt}
    (ages : Ages endings before after) (start : Nat) :
    uncollectedOf (after.drop start) = uncollectedOf (before.drop start) := by
  induction ages with
  | refl => rfl
  | tail _ turned inductionHypothesis =>
      obtain ⟨pid, ending, -, turns⟩ := turned
      refine Eq.trans ?_ inductionHypothesis
      rcases turns.drop start with same | inside
      · rw [same]
      · exact inside.uncollected_eq rfl

namespace Outstanding

variable {start : Nat} {pid : Pid} {pids : List Pid} {table after : List Attempt}

theorem of_ages (outstanding : Outstanding start pids table)
    (ages : Ages Ending.IsTold table after) : Outstanding start pids after := by
  refine ⟨outstanding.orderly.of_ages ages, ?_⟩
  rw [ages.uncollected_drop_eq start]
  exact outstanding.only

theorem of_drifts {kernel asked : Kernel} (outstanding : Outstanding start pids kernel.attempts)
    (drifts : Kernel.telling.Drifts kernel asked) : Outstanding start pids asked.attempts :=
  outstanding.of_ages (Kernel.ages_of_drifts drifts)

/-- A child that is collected is not outstanding any more. -/
theorem of_collecting {ending : Ending} (outstanding : Outstanding start (pid :: pids) table)
    (turns : Turns (.ended pid ending) (.collected pid ending) table after) :
    Outstanding start pids after := by
  refine ⟨outstanding.orderly.of_moves (.collects turns), fun other left => ?_⟩
  have before : other ∈ uncollectedOf (table.drop start) := by
    rcases turns.drop start with same | inside
    · rwa [same] at left
    · exact inside.uncollected_perm.mem_iff.2 (List.mem_cons_of_mem pid left)
  have different : other ≠ pid := by
    rintro rfl
    refine turns.not_mem_uncollected outstanding.orderly.distinct ?_
    exact ((List.drop_sublist start after).filterMap _).subset left
  rcases List.mem_cons.1 (outstanding.only other before) with same | later
  · exact absurd same different
  · exact later

private theorem eq_nil (outstanding : Outstanding start [] table) :
    uncollectedOf (table.drop start) = [] :=
  List.eq_nil_iff_forall_not_mem.2 fun pid left => List.not_mem_nil (outstanding.only pid left)

end Outstanding

theorem Begun.outstanding {start : Nat} {started : List StartedStep} {table : List Attempt}
    (begun : Begun Ending.IsTold start started table) :
    Outstanding start (started.filterMap StartedStep.pid?) table := by
  obtain ⟨pids, running, -⟩ := runningOf_of_begins begun.begins
  refine ⟨begun.orderly, fun pid left => ?_⟩
  rw [pids, running]
  exact left

private theorem Settled.uncollected_eq_nil {attempts : List Attempt} (settled : Settled attempts) :
    uncollectedOf attempts = [] := by
  refine List.filterMap_eq_nil_iff.2 fun attempt member => ?_
  obtain ⟨outcome, known⟩ := settled attempt member
  cases lived : attempt.life with
  | running _ | ended _ _ =>
      rw [lived] at known
      cases known
  | refused _ | collected _ _ => rfl

/-! ## Collecting them -/

/-- The children from one attempt on have all been collected, or a wait has failed. -/
def CollectsFrom {α : Type} (start : Nat) (outcome : Except Stop α) (after : Kernel) : Prop :=
  match outcome with
  | .ok _ => uncollectedOf (after.attempts.drop start) = []
  | .error stop => stop.isFatal = true

private theorem waitForProcesses_collects {start : Nat} {pids : List Pid} {kernel : Kernel}
    (outstanding : Outstanding start pids kernel.attempts) (last : Option Pid)
    (known : Option Int) :
    Kernel.telling.Ensures (fun _ _ => True) (waitForProcesses last known pids).run
      (CollectsFrom start) kernel := by
  induction pids generalizing kernel known with
  | nil => exact outstanding.eq_nil
  | cons pid rest inductionHypothesis =>
      rw [waitForProcesses, ensures_run_bind]
      refine waitFor_ensures (fun _ _ => trivial) (fun _ _ => trivial) ?_ fun _ _ _ => rfl
      intro asked ending turned lingers turns
      have outstandingAsked := outstanding.of_ages lingers.ages
      obtain ⟨attempt, member, lived⟩ := turns.exists_mem
      have told : ending.IsTold :=
        outstandingAsked.orderly.endings attempt member pid ending lived
      rw [if_pos told.hasName]
      exact inductionHypothesis (outstandingAsked.of_collecting turns) _

theorem stopProcesses_collects {start : Nat} {pids : List Pid} {kernel : Kernel}
    (outstanding : Outstanding start pids kernel.attempts) :
    Kernel.telling.Ensures (fun _ _ => True) (stopProcesses pids).run
      (CollectsFrom start) kernel := by
  have signalled : ∀ others : List Pid, Kernel.telling.Ensures (fun _ _ => True)
      (sendShutdown others)
      (fun _ after => Outstanding start pids after.attempts) kernel := by
    intro others
    induction others generalizing kernel with
    | nil => exact outstanding
    | cons pid rest inductionHypothesis =>
        rw [sendShutdown, ensures_bind, ensures_ask]
        intro asked drifts
        refine ⟨trivial, ?_⟩
        rintro given after ⟨answered, rfl, rfl⟩
        have outstandingAsked : Outstanding start pids answered.attempts :=
          outstanding.of_drifts drifts
        exact inductionHypothesis outstandingAsked
  unfold stopProcesses
  rw [ensures_run_bind, ensures_run_lift]
  refine (signalled pids).mono fun _ after outstandingAfter => ?_
  rw [afterAction_ok, ensures_run_bind]
  refine (waitForProcesses_collects outstandingAfter none none).mono ?_
  rintro (stop | status) last collected
  · exact collected
  · exact collected

/-- Steps of a job that cannot be started leave no child behind. -/
theorem startSteps_collects (job : Job) (streams : Redirections) {kernel : Kernel}
    (orderly : Orderly Ending.IsTold kernel.attempts) :
    Kernel.telling.Ensures (fun _ _ => True) (startSteps job streams).run
      (fun outcome after => ∀ failure, outcome = .error (.failure failure) →
        (∃ reason, failure = .pipe reason) ∧
          uncollectedOf (after.attempts.drop kernel.attempts.length) = []) kernel := by
  unfold startSteps
  split
  · refine (startPipeline_begins job.steps_ne_nil
      (show Holds kernel.handles none kernel.handles from rfl) (Begun.nothing orderly)).mono ?_
    rintro outcome after reached failure rfl
    obtain ⟨reason, made, -, -, -, -, givesUp⟩ := reached
    obtain ⟨isPipe, settled⟩ := givesUp.telling
    exact ⟨⟨reason, isPipe⟩, settled.uncollected_eq_nil⟩
  · rw [ensures_run_bind]
    refine (startStep_begins job.first streams kernel).mono ?_
    rintro (stop | told) after begins
    · obtain ⟨text, reason, rfl, -⟩ := begins
      exact fun failure equal => nomatch equal
    · rw [afterAction_ok, ensures_run_bind, ensures_run_lift]
      refine (ensures_later _ after).mono ?_
      exact fun _ closed _ failure equal => nomatch equal

end JobControl
