import JobControl.Proofs.Custody.Starting
import JobControl.Proofs.Unreaped
/-!
# Starting and registering the processes of a job

The steps of a job are launched in order, each once.  Those that are started are unreaped until
they have been waited for, as after a refused pipe, or until they are those of an entry of the
registry.
-/

namespace JobControl

open World

/-! ## Starting a step -/

/-- A step that was tried to be started runs if the launch has started a process. -/
def StartedStep.ComesOf (told : StartedStep) (event : ChildEvent) : Prop :=
  told.running? = event.started? ∧ told.pid? = event.started?

section Starting

variable {endings : Ending → Prop} {before kernel : Kernel} {listed : List Pid}
variable {events : List ChildEvent} {grants : (call : Call) → Kernel → call.Answer → Prop}

/-- What is ensured under all answers is ensured where new children have new numbers and some
answers are not given. -/
theorem World.Ensures.granted {α : Type} {fits : Call → Kernel → Prop} {program : Program α}
    {post : α → Kernel → Prop} (ensured : (Kernel.world endings).Ensures fits program post kernel) :
    ((Kernel.renewing endings before listed).restrict grants).Ensures fits program post kernel :=
  (ensured.restrict (before.Renews listed)).restrict grants

/-- An activity stopped because a complaint could not be written. -/
def Stop.LosesComplaint (stop : Stop) : Prop :=
  ∃ reason, stop = .breach (.noticeLost .errors reason)

/-- Since some events steps have been launched one after the other; what is told of them is right,
and no process is unreaped twice. -/
structure Launched (before : Kernel) (listed : List Pid) (events launches : List ChildEvent)
    (steps : List Step) (told : List StartedStep) (after : Kernel) : Prop where
  starts : List.Forall₂ ChildEvent.Launches launches steps
  comes : List.Forall₂ StartedStep.ComesOf told launches
  sees : before.Sees (events ++ launches) after
  distinct : (unreapedOf listed events ++ told.filterMap StartedStep.pid?).Nodup

namespace Launched

variable {launches : List ChildEvent} {steps : List Step} {told : List StartedStep}
variable {after : Kernel}

theorem nothing (sees : before.Sees events kernel) (distinct : (unreapedOf listed events).Nodup) :
    Launched before listed events [] [] [] kernel where
  starts := .nil
  comes := .nil
  sees := by simpa using sees
  distinct := by simpa using distinct

/-- The processes that are told of are those that the launches have started, and all of them are
told to run. -/
theorem pids_eq (launched : Launched before listed events launches steps told after) :
    told.filterMap StartedStep.pid? = launches.filterMap ChildEvent.started? ∧
      runningOf told = launches.filterMap ChildEvent.started? := by
  have comes := launched.comes
  unfold runningOf
  clear launched
  induction comes with
  | nil => exact ⟨rfl, rfl⟩
  | cons first others inductionHypothesis =>
      obtain ⟨running, known⟩ := first
      obtain ⟨pids, runs⟩ := inductionHypothesis
      simp only [List.filterMap_cons, running, known, pids, runs, and_self]

/-- The processes of the steps are the last ones that are unreaped. -/
theorem unreaped_eq (launched : Launched before listed events launches steps told after) :
    unreapedOf listed (events ++ launches) =
      unreapedOf listed events ++ told.filterMap StartedStep.pid? := by
  rw [unreapedOf_append, unreapedOf_launches launched.starts, launched.pids_eq.1]

theorem add (launched : Launched before listed events launches steps told kernel)
    {step : Step} {started : StartedStep} {event : ChildEvent} (starts : event.Launches step)
    (comes : started.ComesOf event)
    (new : ∀ pid, event.started? = some pid → pid ∉ unreapedOf listed (events ++ launches))
    (sees : before.Sees (events ++ launches ++ [event]) after) :
    Launched before listed events (launches ++ [event]) (steps ++ [step]) (told ++ [started])
      after where
  starts := List.rel_append launched.starts (.cons starts .nil)
  comes := List.rel_append launched.comes (.cons comes .nil)
  sees := by simpa using sees
  distinct := by
    rw [List.filterMap_append, ← List.append_assoc]
    rw [launched.unreaped_eq] at new
    cases known : event.started? with
    | none => simpa [comes.2, known] using launched.distinct
    | some pid =>
        have absent := new pid known
        have distinct := launched.distinct
        simp only [List.filterMap_cons, comes.2, known, List.filterMap_nil]
        rw [List.nodup_append]
        refine ⟨distinct, List.nodup_singleton pid, ?_⟩
        intro other member last isLast same
        rw [List.mem_singleton.1 isLast] at same
        exact absent (same ▸ member)

/-- What does nothing about children leaves the steps as they are. -/
theorem plain {α : Type} {program : Program α} {good : α → Prop}
    (launched : Launched before listed events launches steps told kernel)
    (within : program.Within (fun call => call.isPlain = true) good) :
    (Kernel.world endings).Ensures (fun call _ => call.isSignal = false) program
      (fun result after => good result ∧
        Launched before listed events launches steps told after) kernel := by
  refine (within.sees launched.sees).mono ?_
  exact fun result after ⟨tame, seen⟩ => ⟨tame, { launched with sees := seen }⟩

end Launched

section Steps

variable {launches : List ChildEvent} {steps : List Step} {told : List StartedStep}

/-- To start a step is to launch its program once; a child that is started has a new number. -/
theorem startStep_launches (step : Step) (streams : Redirections)
    (launched : Launched before listed events launches steps told kernel) :
    (Kernel.renewing endings before listed).Ensures (fun call _ => call.isSignal = false)
      (startStep step streams).run
      (fun outcome after => match outcome with
        | .ok started => ∃ event, Launched before listed events (launches ++ [event])
            (steps ++ [step]) (told ++ [started]) after
        | .error stop => stop.LosesComplaint) kernel := by
  unfold startStep
  rw [ensures_run_bind, ensures_run_ask]
  intro asked drifts
  have sees := launched.sees.of_drifts drifts
  refine ⟨rfl, fun given after ⟨answers, granted⟩ => ?_⟩
  have tried := sees.of_answers answers
  rw [afterAction_ok]
  cases given with
  | ok pid =>
      refine ⟨_, launched.add ⟨_, _, rfl, rfl, rfl⟩ ⟨rfl, rfl⟩ ?_ tried⟩
      intro process started
      cases started
      rw [← sees.shown]
      exact granted
  | error fault =>
      dsimp only
      rw [ensures_run_bind]
      have plain : (Action.complain (launchFailure step.program fault).1).Makes
          (fun call => call.isPlain = true) Stop.LosesComplaint :=
        Action.notice_makes rfl fun reason => ⟨reason, rfl⟩
      refine ((Program.Within.sees plain tried).restrict _).mono ?_
      intro outcome last ⟨lost, seen⟩
      cases outcome with
      | error stop => exact lost stop rfl
      | ok _ =>
          refine ⟨_, launched.add ⟨_, _, rfl, rfl, rfl⟩ ⟨rfl, rfl⟩ ?_ seen⟩
          intro process started
          cases started

/-! ## Waiting for steps -/

/-- Processes have been reaped one after the other, unless a wait failed, which is fatal. -/
def HasReaped {α : Type} (before : Kernel) (events : List ChildEvent) (pids : List Pid) :
    Except Stop α → Kernel → Prop
  | .ok _, after => before.Sees (events ++ pids.map .reaped) after
  | .error stop, _ => stop.isFatal = true

theorem waitFor_reaps (pid : Pid) (sees : before.Sees events kernel) :
    (Kernel.world endings).Ensures (fun call _ => call.isSignal = false) (waitFor pid).run
      (HasReaped before events [pid]) kernel := by
  let holds : Nat → Kernel → Prop := fun _ state => before.Sees events state
  rw [waitFor, ensures_run_bind, ensures_run_ask]
  intro asked drifts
  refine ⟨rfl, fun again told answers => ?_⟩
  have silent : Answered.childEvent? ⟨.bound .waits, again⟩ = none := rfl
  have seen := Kernel.Sees.of_answers (sees.of_drifts drifts) answers
  rw [silent, Option.toList_none, List.append_nil] at seen
  rw [afterAction_ok]
  refine waitTimes_ensures (fun _ _ _ drifts sees => Kernel.Sees.of_drifts sees drifts)
    (fun _ _ _ => rfl) ?_ ?_ (fun _ _ => rfl)
    (show holds (again + 1) told from seen)
  · intro _ asked given after answers cut sees
    have nothing : Answered.childEvent? ⟨.wait pid, given⟩ = none := by
      rw [Answered.childEvent?_wait, Kernel.collected?_of_waitResult? cut, Option.map_none]
    have seen := Kernel.Sees.of_answers sees answers
    rw [nothing, Option.toList_none, List.append_nil] at seen
    exact seen
  · intro _ asked given after result answers brought sees
    cases result with
    | error stop =>
        rw [waitResult?_error brought]
        rfl
    | ok status =>
        have reaped : Answered.childEvent? ⟨.wait pid, given⟩ = some (.reaped pid) := by
          rw [Answered.childEvent?_wait, Kernel.collected?_of_status brought, Option.map_some]
        have seen := Kernel.Sees.of_answers sees answers
        rw [reaped] at seen
        exact seen

theorem waitForAll_reaps (told : List StartedStep) (sees : before.Sees events kernel) :
    (Kernel.world endings).Ensures (fun call _ => call.isSignal = false) (waitForAll told)
      (fun result after => HasReaped before events (runningOf told) result.1 after) kernel := by
  induction told generalizing kernel events with
  | nil => exact sees.nothingMore
  | cons step rest inductionHypothesis =>
      have goesOn : ∀ status known middle seen, before.Sees seen middle →
          (Kernel.world endings).Ensures (fun call _ => call.isSignal = false)
            (waitForAll rest >>= fun result =>
              pure (result.1.map fun last => some (last.getD status), known :: result.2))
            (fun result after => HasReaped before seen (runningOf rest) result.1 after)
            middle := by
        intro status known middle seen sees
        rw [ensures_bind]
        refine (inductionHypothesis sees).mono ?_
        intro ⟨outcome, others⟩ after reached
        cases outcome with
        | ok last => exact reached
        | error stop => exact reached
      rw [waitForAll, ensures_bind]
      unfold StartedStep.wait
      cases state : step.state with
      | ended pid status =>
          have apart : runningOf (step :: rest) = runningOf rest := by
            simp [runningOf, StartedStep.running?, state]
          rw [apart]
          exact goesOn _ _ _ _ sees
      | neverStarted status =>
          have apart : runningOf (step :: rest) = runningOf rest := by
            simp [runningOf, StartedStep.running?, state]
          rw [apart]
          exact goesOn _ _ _ _ sees
      | running pid =>
          have first : runningOf (step :: rest) = pid :: runningOf rest := by
            simp [runningOf, StartedStep.running?, state]
          rw [first]
          dsimp only
          rw [ensures_bind]
          refine (waitFor_reaps pid sees).mono ?_
          intro outcome after reached
          cases outcome with
          | error stop => exact reached
          | ok status =>
              refine (goesOn _ _ _ _ reached).mono ?_
              intro result last others
              unfold HasReaped at others ⊢
              simpa using others

/-! ## Starting all steps -/

/-- Whatever has been started since some events has been reaped, and nothing was signalled. -/
def Kernel.Restores (before : Kernel) (listed : List Pid) (events : List ChildEvent)
    (after : Kernel) : Prop :=
  ∃ added, before.Sees (events ++ added) after ∧
    unreapedOf listed (events ++ added) = unreapedOf listed events ∧
    added.filterMap ChildEvent.signalled? = []

/-- When all steps that were launched are reaped, the same processes are unreaped as before. -/
theorem Launched.restores {after : Kernel}
    (launched : Launched before listed events launches steps told kernel)
    (reaped : before.Sees (events ++ launches ++ (runningOf told).map .reaped) after) :
    before.Restores listed events after := by
  obtain ⟨pids, running⟩ := launched.pids_eq
  refine ⟨launches ++ (runningOf told).map .reaped, by simpa using reaped, ?_, ?_⟩
  · rw [← List.append_assoc, unreapedOf_append, launched.unreaped_eq, running, ← pids]
    exact unreapedOf_reaped_append launched.distinct
  · rw [List.filterMap_append, signalled_launches launched.starts, signalled_reaped,
      List.append_nil]

/-- What comes of starting all of some steps: each has been launched.  If a complaint could not be
written, or if a pipe was refused, no steps are told of; in the second case those that had been
started are reaped, unless waiting for them failed. -/
def StepsLaunched (grants : (call : Call) → Kernel → call.Answer → Prop) (before : Kernel)
    (listed : List Pid) (events : List ChildEvent) (steps : List Step) :
    Except Stop (List StartedStep) → Kernel → Prop
  | .ok told, after => ∃ launches, Launched before listed events launches steps told after
  | .error stop, after => stop.LosesComplaint ∨
      (∃ asked reason, grants (.makePipe .closed) asked (.error reason)) ∧
        (stop.isFatal = true ∨ before.Restores listed events after)

/-- The last step of a pipeline, or the only step of a job, is started. -/
theorem startLast_launches {closing : Program Unit} (step : Step) (streams : Redirections)
    (launched : Launched before listed events launches steps told kernel)
    (plain : closing.Only fun call => call.isPlain = true) :
    ((Kernel.renewing endings before listed).restrict grants).Ensures
      (fun call _ => call.isSignal = false)
      (do
        let started ← startStep step streams
        closing
        pure (told ++ [started]) : Action (List StartedStep)).run
      (StepsLaunched grants before listed events (steps ++ [step])) kernel := by
  rw [ensures_run_bind]
  refine ((startStep_launches step streams launched).restrict grants).mono ?_
  intro outcome after reached
  cases outcome with
  | error stop => exact Or.inl reached
  | ok started =>
      obtain ⟨event, launched⟩ := reached
      rw [afterAction_ok, ensures_run_bind, ensures_run_lift]
      refine (launched.plain plain).granted.mono ?_
      exact fun _ closed ⟨_, kept⟩ => ⟨_, kept⟩

/-- When a pipe is refused, the steps that have been started are waited for. -/
theorem giveUp_reaps {source : Option Handle} {all : List Step} {reason : Errno}
    (refused : ∃ asked reason, grants (.makePipe .closed) asked (.error reason))
    (launched : Launched before listed events launches steps told kernel) :
    ((Kernel.renewing endings before listed).restrict grants).Ensures
      (fun call _ => call.isSignal = false)
      (do
        Redirections.closeHandle source
        let (waited, _) ← (waitForAll told :
          Action (Except Stop (Option Int) × List StartedStep))
        match waited with
        | .error stop => throw stop
        | .ok _ => Action.fail (.pipe reason) : Action (List StartedStep)).run
      (StepsLaunched grants before listed events all) kernel := by
  have plain := Redirections.closeHandle_plain source
  rw [ensures_run_bind, ensures_run_lift]
  refine (launched.plain plain).granted.mono ?_
  intro _ closed ⟨_, kept⟩
  rw [afterAction_ok, ensures_run_bind, ensures_run_lift]
  refine (waitForAll_reaps told kept.sees).granted.mono ?_
  intro ⟨outcome, others⟩ after reached
  cases outcome with
  | error stop => exact Or.inr ⟨refused, Or.inl reached⟩
  | ok status => exact Or.inr ⟨refused, Or.inr (kept.restores reached)⟩

private theorem startPipeline_launches (rest : List Step) {source : Option Handle}
    (launched : Launched before listed events launches steps told kernel) :
    ((Kernel.renewing endings before listed).restrict grants).Ensures
      (fun call _ => call.isSignal = false) (startPipeline source told rest).run
      (StepsLaunched grants before listed events (steps ++ rest)) kernel := by
  -- The last step is a case of its own: it is the only one for which no pipe is made.
  induction rest generalizing source launches steps told kernel with
  | nil =>
      rw [List.append_nil]
      exact ⟨launches, launched⟩
  | cons step others inductionHypothesis =>
      cases others with
      | nil => exact startLast_launches step _ launched (Redirections.closeHandle_plain source)
      | cons next rest =>
          rw [startPipeline, ensures_run_bind, ensures_run_ask]
          intro asked drifts
          refine ⟨rfl, fun given piped answered => ?_⟩
          obtain ⟨⟨answers, -⟩, granted⟩ := answered
          have kept : Launched before listed events launches steps told piped := by
            have silent : Answered.childEvent? ⟨.makePipe .closed, given⟩ = none := rfl
            have seen := (launched.sees.of_drifts drifts).of_answers answers
            rw [silent] at seen
            exact { launched with sees := by simpa using seen }
          rw [afterAction_ok]
          cases given with
          | error reason => exact giveUp_reaps ⟨asked, reason, granted⟩ kept
          | ok ends =>
              have first := Redirections.closeHandle_plain source
              have second : (Program.ask (.close ends.2)).Only fun call => call.isPlain = true :=
                Program.only_ask rfl
              dsimp only
              rw [ensures_run_bind]
              refine ((startStep_launches step _ kept).restrict grants).mono ?_
              intro outcome after reached
              cases outcome with
              | error stop => exact Or.inl reached
              | ok started =>
                  obtain ⟨event, entered⟩ := reached
                  rw [afterAction_ok, ensures_run_bind, ensures_run_lift]
                  refine (entered.plain first).granted.mono ?_
                  intro _ closed kept
                  obtain ⟨-, entered⟩ := kept
                  rw [afterAction_ok, ensures_run_bind]
                  refine (ensures_run_lift (Program.ask (.close ends.2)) _ _).2 ?_
                  refine (entered.plain second).granted.mono ?_
                  intro _ handed kept
                  obtain ⟨-, entered⟩ := kept
                  rw [afterAction_ok, List.append_cons steps]
                  exact inductionHypothesis entered

theorem startSteps_launches (job : Job) (streams : Redirections)
    (sees : before.Sees events kernel) (distinct : (unreapedOf listed events).Nodup) :
    ((Kernel.renewing endings before listed).restrict grants).Ensures
      (fun call _ => call.isSignal = false) (startSteps job streams).run
      (StepsLaunched grants before listed events job.steps) kernel := by
  have launched := Launched.nothing sees distinct
  unfold startSteps
  by_cases pipeline : job.isPipeline = true
  · rw [if_pos pipeline]
    exact startPipeline_launches job.steps launched
  · have alone : job.rest = [] := by simpa [Job.isPipeline] using pipeline
    have single : job.steps = [] ++ [job.first] := by simp [Job.steps, alone]
    rw [if_neg pipeline, single]
    exact startLast_launches job.first streams launched (Redirections.close_plain streams)

end Steps

/-! ## Registering -/

/-- The processes of all jobs that have not been reaped, the oldest job first. -/
def Registry.processes (jobs : Registry) : List Pid :=
  jobs.entries.flatMap Entry.processes

private theorem entryOf_eq_ok (job : Job) {pids : List Pid} (failed : Option Int) (moment : Moment)
    (nonempty : pids ≠ []) :
    ∃ entry, Session.entryOf job pids failed moment = .ok entry ∧ entry.job = job ∧
      entry.processes = pids ∧ entry.IsNamed := by
  have last := List.getLast?_eq_some_getLast nonempty
  unfold Session.entryOf Entry.ofProcesses
  rw [last]
  cases failed with
  | none => exact ⟨_, rfl, rfl, rfl, last⟩
  | some status => exact ⟨_, rfl, rfl, rfl, last⟩

/-- What registering a job leaves of the session: a new last entry with the processes of the job,
unless it has none. -/
def Registers (session : Session) (job : Job) (pids : List Pid) (changed : Session) : Prop :=
  pids = [] ∧ changed = session ∨
    ∃ entry, entry.job = job ∧ entry.processes = pids ∧ entry.IsNamed ∧
      changed = { session with
        jobs := { session.jobs with entries := session.jobs.entries ++ [entry] } }

/-- A job whose processes have new numbers is registered where there is room. -/
theorem register_registers {session : Session} {job : Job} {told : List StartedStep}
    (room : session.jobs.isFull = false) (keyed : Registry.IsKeyed session.jobs.entries)
    (new : ∀ pid ∈ told.filterMap StartedStep.pid?, pid ∉ session.jobs.processes)
    (sees : before.Sees events kernel) :
    (Kernel.world endings).Achieves (fun call _ => call.isSignal = false)
      (Session.register job told) session
      (fun _ changed after => Registers session job (told.filterMap StartedStep.pid?) changed ∧
        before.Sees events after) kernel := by
  unfold Session.register
  dsimp only
  by_cases unstarted : told.filterMap StartedStep.pid? = []
  · rw [unstarted, List.isEmpty_nil, if_pos rfl, achieves_pure]
    exact ⟨Or.inl ⟨rfl, rfl⟩, sees⟩
  · rw [if_neg (by simpa using unstarted), achieves_bind, achieves_lift, ensures_run_ask]
    intro asked drifts
    refine ⟨rfl, fun moment after answers => ?_⟩
    have seen : before.Sees events after := by
      have silent : Answered.childEvent? ⟨.now, moment⟩ = none := rfl
      have seen := (sees.of_drifts drifts).of_answers answers
      rw [silent] at seen
      simpa using seen
    obtain ⟨entry, made, ofJob, processes, named⟩ :=
      entryOf_eq_ok job (Session.failedLastStep told) moment unstarted
    have other : ∀ listed ∈ session.jobs.entries, listed.pid ≠ entry.pid := by
      intro listed isListed same
      have member : entry.pid ∈ told.filterMap StartedStep.pid? := processes ▸ named.mem
      have known := (keyed.named listed isListed).mem
      exact new entry.pid member (List.mem_flatMap.2 ⟨listed, isListed, same ▸ known⟩)
    have registers : Registers session job (told.filterMap StartedStep.pid?) { session with
        jobs := { session.jobs with entries := session.jobs.entries ++ [entry] } } :=
      Or.inr ⟨entry, ofJob, processes, named, rfl⟩
    rw [afterActivity_ok, made]
    dsimp only
    rw [achieves_bind, achieves_get, afterActivity_ok, Registry.insert_of_new other, room,
      if_neg Bool.false_ne_true]
    dsimp only
    rw [achieves_bind, achieves_set, afterActivity_ok]
    by_cases notices : session.settings.showNotices = true
    · rw [if_pos notices, achieves_lift]
      refine ((Action.notice_isPlain _ _).sees seen).mono ?_
      exact fun _ last ⟨_, told⟩ => ⟨registers, told⟩
    · rw [if_neg notices]
      exact ⟨registers, seen⟩

/-! ## Running in the background -/

/-- What comes of a job that runs in the background where there is room for it: its files could not
be opened, not all of its steps could be launched, or it is registered. -/
inductive Dispatched (grants : (call : Call) → Kernel → call.Answer → Prop) (before : Kernel)
    (listed : List Pid) (events : List ChildEvent) (session : Session) (job : Job) :
    Except Stop Unit → Session → Kernel → Prop where
  | unopened {outcome : Except Stop Unit} {after : Kernel}
      (sees : before.Sees events after) :
      Dispatched grants before listed events session job outcome session after
  | unlaunched {stop : Stop} {after : Kernel}
      (stopped : StepsLaunched grants before listed events job.steps (.error stop) after) :
      Dispatched grants before listed events session job (.error stop) session after
  | launched {outcome : Except Stop Unit} {changed : Session} {after : Kernel}
      {launches : List ChildEvent} {told : List StartedStep}
      (launched : Launched before listed events launches job.steps told after)
      (registers : Registers session job (told.filterMap StartedStep.pid?) changed) :
      Dispatched grants before listed events session job outcome changed after

theorem runProgramJob_dispatches {session : Session} {job : Job}
    (background : job.background = true) (room : session.jobs.isFull = false)
    (keyed : Registry.IsKeyed session.jobs.entries)
    (unreaped : unreapedOf listed events = session.jobs.processes)
    (sees : before.Sees events kernel) :
    ((Kernel.renewing endings before listed).restrict grants).Achieves
      (fun call _ => call.isSignal = false) (Session.runProgramJob job) session
      (Dispatched grants before listed events session job) kernel := by
  have distinct : (unreapedOf listed events).Nodup := by
    rw [unreaped]
    exact keyed.distinct
  unfold Session.runProgramJob
  rw [achieves_bind, achieves_get, afterActivity_ok, background, room, Bool.and_false,
    if_neg Bool.false_ne_true, achieves_bind, achieves_lift]
  refine (Ensures.granted ((Session.streamsOf_isPlain job).sees sees)).mono ?_
  intro outcome opened ⟨_, seen⟩
  cases outcome with
  | error stop => exact .unopened seen
  | ok streams =>
      rw [afterActivity_ok, achieves_bind, achieves_lift]
      refine (startSteps_launches job streams seen distinct).mono ?_
      intro outcome started reached
      cases outcome with
      | error stop => exact .unlaunched reached
      | ok told =>
          obtain ⟨launches, launched⟩ := reached
          have new : ∀ pid ∈ told.filterMap StartedStep.pid?, pid ∉ session.jobs.processes := by
            intro pid member isListed
            have distinct := launched.distinct
            rw [unreaped] at distinct
            exact List.disjoint_of_nodup_append distinct isListed member
          rw [afterActivity_ok, if_pos rfl]
          refine Ensures.mono
            (Ensures.granted (register_registers room keyed new launched.sees)) ?_
          intro outcome after ⟨entered, told⟩
          exact .launched { launched with sees := told } entered

end Starting

end JobControl
