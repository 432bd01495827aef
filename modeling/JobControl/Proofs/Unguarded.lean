import JobControl.Proofs.Promises
import Mathlib.Tactic.Choose
/-!
# Places that are never reached

The types of jobs, steps and builtins leave no room for a job without steps, for a step that runs
without a process, or for a builtin of another name.  Here lines are run without these guards: the
first step is looked up among the steps, a process is a record of independent fields, a builtin is
chosen by its name, and each of these may fail.  Both ways to run a line are the same program, so
none of the places is ever reached.
-/

namespace JobControl

/-- A place of a program that is not meant to be reached. -/
inductive Panic where
  | stepMissing
  | builtinUnknown
  | processWithoutPid
  deriving DecidableEq, Repr

namespace Unguarded

variable {α β ε : Type} {m : Type → Type} [Monad m]

/-! ## Programs that may panic -/

theorem lift_bind [LawfulMonad m] (program : m α) (next : α → m β) :
    (ExceptT.lift (program >>= next) : ExceptT ε m β) =
      ExceptT.lift program >>= fun result => ExceptT.lift (next result) := by
  apply ExceptT.ext
  simp [ExceptT.run_bind]

theorem lift_pure [LawfulMonad m] (result : α) :
    (ExceptT.lift (pure result) : ExceptT ε m α) = pure result := by
  apply ExceptT.ext
  simp

/-! ## Processes -/

/-- A process of a job, without anything that ties its fields to one another. -/
structure Process where
  commandLine : String
  pid? : Option Pid
  completed : Bool
  status? : Option Int
  deriving DecidableEq, Repr

namespace Process

def running (commandLine : String) (pid : Pid) : Process :=
  { commandLine := commandLine, pid? := some pid, completed := false, status? := none }

def failed (commandLine : String) (status : Int) : Process :=
  { commandLine := commandLine, pid? := none, completed := true, status? := some status }

/-- Waits until a process has ended; a process that has not and is not known cannot be waited
for. -/
def wait (process : Process) : ExceptT Panic Program (Except Stop Int × Process) :=
  match process.completed, process.status?, process.pid? with
  | true, some status, _ => pure (.ok status, process)
  | _, _, some pid => do
      match ← ExceptT.lift (waitFor pid).run with
      | .ok status => pure (.ok status, { process with completed := true, status? := some status })
      | .error stop => pure (.error stop, process)
  | _, _, none => throw .processWithoutPid

/-- Waits for processes in order until a wait fails, and gives the status of the last. -/
def waitForAll : List Process → ExceptT Panic Program (Except Stop (Option Int) × List Process)
  | [] => pure (.ok none, [])
  | process :: rest => do
      match ← process.wait with
      | (.error stop, process) => pure (.error stop, process :: rest)
      | (.ok status, process) => do
          let (result, rest) ← waitForAll rest
          pure (result.map fun last => some (last.getD status), process :: rest)

/-- The fields of a step that has been started, or could not be. -/
def ofStep (step : StartedStep) : Process :=
  match step.state with
  | .running pid => running step.commandLine pid
  | .ended pid status =>
      { commandLine := step.commandLine
        pid? := some pid
        completed := true
        status? := some status }
  | .neverStarted status => failed step.commandLine status

@[simp]
theorem pid?_ofStep (step : StartedStep) : (ofStep step).pid? = step.pid? := by
  unfold ofStep StartedStep.pid?
  cases step.state <;> rfl

@[simp]
theorem status?_ofStep (step : StartedStep) : (ofStep step).status? = step.status? := by
  unfold ofStep StartedStep.status?
  cases step.state <;> rfl

/-- A started step is waited for without panic, and is a started step afterwards. -/
theorem wait_ofStep (step : StartedStep) :
    (ofStep step).wait =
      ExceptT.lift (step.wait >>= fun result => pure (result.1, ofStep result.2)) := by
  obtain ⟨commandLine, state⟩ := step
  cases state with
  | ended pid status => rfl
  | neverStarted status => rfl
  | running pid =>
      have waits : StartedStep.wait ⟨commandLine, .running pid⟩ =
          (waitFor pid).run >>= fun outcome =>
            match outcome with
            | .ok status => pure (.ok status, ⟨commandLine, .ended pid status⟩)
            | .error stop => pure (.error stop, ⟨commandLine, .running pid⟩) := rfl
      rw [waits, bind_assoc, lift_bind]
      refine congrArg (ExceptT.lift (waitFor pid).run >>= ·) (funext fun outcome => ?_)
      cases outcome with
      | ok status => exact (lift_pure _).symm
      | error stop => exact (lift_pure _).symm

theorem waitForAll_ofStep (steps : List StartedStep) :
    waitForAll (steps.map ofStep) =
      ExceptT.lift (JobControl.waitForAll steps >>= fun result =>
        pure (result.1, result.2.map ofStep)) := by
  induction steps with
  | nil => rfl
  | cons step rest inductionHypothesis =>
      rw [List.map_cons, waitForAll, wait_ofStep, JobControl.waitForAll]
      simp only [lift_bind, lift_pure, bind_assoc, pure_bind]
      refine congrArg (ExceptT.lift step.wait >>= ·) (funext fun waited => ?_)
      obtain ⟨outcome, after⟩ := waited
      cases outcome with
      | error stop => simp only [pure_bind, lift_pure, List.map_cons]
      | ok status =>
          simp only [inductionHypothesis, lift_bind, lift_pure, bind_assoc, pure_bind,
            List.map_cons]

end Process

/-! ## Starting -/

/-- A program that may panic, as an action. -/
def ofProgram (program : ExceptT Panic Program α) : ExceptT Panic Action α :=
  ExceptT.mk (liftM program.run : Action (Except Panic α))

private theorem ofProgram_lift (program : Program α) :
    ofProgram (ExceptT.lift program) = ExceptT.lift (liftM program : Action α) := by
  apply ExceptT.ext
  apply ExceptT.ext
  change (ExceptT.lift (ExceptT.lift program).run : Action (Except Panic α)).run =
    (ExceptT.lift (ExceptT.lift program : Action α) : ExceptT Panic Action α).run.run
  simp only [ExceptT.run_lift, ExceptT.run_map, Functor.map_map]
  rfl

theorem ofProgram_lift_map (program : Program α) (change : α → β) :
    ofProgram (ExceptT.lift (program >>= fun result => pure (change result))) =
      ExceptT.lift ((liftM program : Action α) >>= fun result => pure (change result)) := by
  rw [ofProgram_lift]
  have lifted : (ExceptT.lift (program >>= fun result => pure (change result)) : Action β) =
      ExceptT.lift program >>= fun result => pure (change result) := by
    rw [lift_bind]
    exact congrArg (_ >>= ·) (funext fun _ => lift_pure _)
  exact congrArg ExceptT.lift lifted

/-- A job as the record of its fields; that it has a step is not said. -/
def ofJob (job : Job) : JobDraft :=
  { input := job.input
    steps := job.steps
    inputFile := job.inputFile
    outputFile := job.outputFile
    background := job.background }

/-- The first step of a job, looked up among its steps. -/
def firstStep (job : JobDraft) : ExceptT Panic m Step :=
  match job.steps[0]? with
  | some step => pure step
  | none => throw .stepMissing

@[simp]
theorem firstStep_ofJob (job : Job) :
    (firstStep (ofJob job) : ExceptT Panic m Step) = pure job.first :=
  rfl

def isPipeline (job : JobDraft) : Bool :=
  1 < job.steps.length

@[simp]
theorem isPipeline_ofJob (job : Job) : isPipeline (ofJob job) = job.isPipeline := by
  unfold isPipeline Job.isPipeline ofJob Job.steps
  cases job.rest <;> simp

def resolve (job : JobDraft) : ExceptT Panic Action Redirections := do
  let first ← firstStep job
  if ([job.inputFile, job.outputFile, first.errorFile].filterMap id).Nodup then
    let input ← ExceptT.lift (Redirections.openNamed Redirections.openInput job.inputFile)
    let output ← ExceptT.lift (Redirections.closingOnStop [input]
      (Redirections.openNamed Redirections.openOutput job.outputFile))
    let errors ← ExceptT.lift (Redirections.closingOnStop [input, output]
      (Redirections.openNamed Redirections.openOutput first.errorFile))
    pure { input := input, output := output, errors := errors }
  else
    ExceptT.lift (Action.fail .redirectionConflict)

private theorem resolve_ofJob (job : Job) :
    resolve (ofJob job) = ExceptT.lift (Redirections.resolve job) := by
  unfold resolve Redirections.resolve
  have names : [(ofJob job).inputFile, (ofJob job).outputFile, job.first.errorFile].filterMap id =
      Redirections.names job := rfl
  rw [firstStep_ofJob, pure_bind, names]
  by_cases distinct : (Redirections.names job).Nodup
  · have agrees : ¬Redirections.conflict job = true := by simp [Redirections.conflict, distinct]
    rw [if_pos distinct, if_neg agrees]
    simp only [lift_bind, lift_pure]
    rfl
  · have conflict : Redirections.conflict job = true := by simp [Redirections.conflict, distinct]
    rw [if_neg distinct, if_pos conflict]

def streamsOf (job : JobDraft) : ExceptT Panic Action Redirections :=
  if isPipeline job then pure {} else resolve job

private theorem streamsOf_ofJob (job : Job) :
    streamsOf (ofJob job) = ExceptT.lift (Session.streamsOf job) := by
  unfold streamsOf Session.streamsOf
  rw [isPipeline_ofJob]
  by_cases several : job.isPipeline = true
  · rw [if_pos several, if_pos several, lift_pure]
  · rw [if_neg several, if_neg several, resolve_ofJob]

def startStep (step : Step) (streams : Redirections) : Action Process := do
  let answer ← Action.ask (.launch
    { program := step.program
      arguments := step.arguments
      input := streams.input
      output := streams.output
      errors := streams.errors })
  match answer with
  | .ok pid => pure (.running step.commandLine pid)
  | .error fault => do
      let (failure, status) := launchFailure step.program fault
      Action.complain failure
      pure (.failed step.commandLine status)

private theorem startStep_eq (step : Step) (streams : Redirections) :
    startStep step streams = JobControl.startStep step streams >>= fun started =>
      pure (Process.ofStep started) := by
  unfold startStep JobControl.startStep
  rw [bind_assoc]
  refine congrArg (_ >>= ·) (funext fun answer => ?_)
  cases answer with
  | ok pid => exact (pure_bind _ _).symm
  | error fault =>
      dsimp only
      rw [bind_assoc]
      simp only [pure_bind]
      rfl

/-- Starts the steps of a pipeline after those already started; if a pipe cannot be made, those are
waited for. -/
def startPipeline (source : Option Handle) (started : List Process) :
    List Step → ExceptT Panic Action (List Process)
  | [] => pure started
  | [last] => do
      let process ← ExceptT.lift (startStep last { input := source })
      ExceptT.lift (liftM (Redirections.closeHandle source) : Action Unit)
      pure (started ++ [process])
  | step :: next :: rest => do
      match ← ExceptT.lift (Action.ask (.makePipe .closed)) with
      | .error reason => do
          ExceptT.lift (liftM (Redirections.closeHandle source) : Action Unit)
          let (waited, _) ← ofProgram (Process.waitForAll started)
          match waited with
          | .error stop => ExceptT.lift (throw stop)
          | .ok _ => ExceptT.lift (Action.fail (.pipe reason))
      | .ok (readEnd, writeEnd) => do
          let process ← ExceptT.lift
            (startStep step { input := source, output := some writeEnd })
          ExceptT.lift (liftM (Redirections.closeHandle source) : Action Unit)
          ExceptT.lift (Action.ask (.close writeEnd))
          startPipeline (some readEnd) (started ++ [process]) (next :: rest)

private theorem startPipeline_ofStep (source : Option Handle) (started : List StartedStep)
    (steps : List Step) :
    startPipeline source (started.map Process.ofStep) steps =
      ExceptT.lift (JobControl.startPipeline source started steps >>= fun all =>
        pure (all.map Process.ofStep)) := by
  induction steps generalizing source started with
  | nil => exact (lift_pure _).symm
  | cons step rest inductionHypothesis =>
      cases rest with
      | nil =>
          rw [startPipeline, JobControl.startPipeline, startStep_eq]
          simp only [lift_bind, lift_pure, bind_assoc, pure_bind, List.map_append, List.map_cons,
            List.map_nil]
      | cons next others =>
          rw [startPipeline, JobControl.startPipeline, bind_assoc, lift_bind]
          refine congrArg (_ >>= ·) (funext fun answer => ?_)
          cases answer with
          | error reason =>
              dsimp only
              rw [Process.waitForAll_ofStep, ofProgram_lift_map]
              simp only [lift_bind, lift_pure, bind_assoc, pure_bind]
              refine congrArg (_ >>= ·) (funext fun _ => ?_)
              refine congrArg (_ >>= ·) (funext fun result => ?_)
              cases result.1 with
              | error stop => rfl
              | ok last => rfl
          | ok ends =>
              dsimp only
              rw [startStep_eq]
              simp only [lift_bind, lift_pure, bind_assoc, pure_bind]
              refine congrArg (_ >>= ·) (funext fun first => ?_)
              refine congrArg (_ >>= ·) (funext fun _ => ?_)
              refine congrArg (_ >>= ·) (funext fun _ => ?_)
              have more := inductionHypothesis (some ends.1) (started ++ [first])
              rw [List.map_append, List.map_cons, List.map_nil, lift_bind] at more
              simpa only [lift_pure] using more

def startSteps (job : JobDraft) (streams : Redirections) :
    ExceptT Panic Action (List Process) :=
  if isPipeline job then
    startPipeline none [] job.steps
  else do
    let first ← firstStep job
    let process ← ExceptT.lift (startStep first streams)
    ExceptT.lift (liftM streams.close : Action Unit)
    pure [process]

theorem startSteps_ofJob (job : Job) (streams : Redirections) :
    startSteps (ofJob job) streams =
      ExceptT.lift (JobControl.startSteps job streams >>= fun all =>
        pure (all.map Process.ofStep)) := by
  unfold startSteps JobControl.startSteps
  rw [isPipeline_ofJob]
  by_cases several : job.isPipeline = true
  · rw [if_pos several, if_pos several]
    exact startPipeline_ofStep none [] job.steps
  · rw [if_neg several, if_neg several, firstStep_ofJob, pure_bind, startStep_eq]
    simp only [lift_bind, lift_pure, bind_assoc, pure_bind, List.map_cons, List.map_nil]

/-! ## Running -/

/-- An action that may panic, as an activity. -/
def ofAction (action : ExceptT Panic Action α) : ExceptT Panic Activity α :=
  ExceptT.mk (liftM action.run : Activity (Except Panic α))

private theorem ofAction_lift (action : Action α) :
    ofAction (ExceptT.lift action) = ExceptT.lift (liftM action : Activity α) := by
  apply ExceptT.ext
  apply ExceptT.ext
  apply StateT.ext
  intro session
  change ((ExceptT.lift action).run.run >>= fun outcome => pure (outcome, session)) =
    ((ExceptT.lift (liftM action : Activity α) : ExceptT Panic Activity α).run.run).run session
  have lifted : (ExceptT.run (liftM action : Activity α)).run session =
      (fun outcome => (outcome, session)) <$> action.run := by
    change (action.run >>= fun outcome => pure (outcome, session)) = _
    exact (map_eq_pure_bind _ _).symm
  simp [lifted]

private theorem ofAction_lift_map (action : Action α) (change : α → β) :
    ofAction (ExceptT.lift (action >>= fun result => pure (change result))) =
      ExceptT.lift (liftM action : Activity α) >>= fun result => pure (change result) := by
  have lifted : (liftM (action >>= fun result => pure (change result)) : Activity β) =
      (liftM action : Activity α) >>= fun result => pure (change result) := by
    apply ExceptT.ext
    apply StateT.ext
    intro session
    change ((action.run >>= ExceptT.bindCont fun result => pure (change result)) >>=
        fun outcome => pure (outcome, session)) =
      (action.run >>= fun outcome => pure (outcome, session)) >>= fun reached =>
        (ExceptT.bindCont (fun result => pure (change result)) reached.1 :
          StateT Session Program (Except Stop β)).run reached.2
    rw [bind_assoc, bind_assoc]
    refine congrArg (action.run >>= ·) (funext fun outcome => ?_)
    cases outcome <;> rfl
  rw [ofAction_lift, lifted, lift_bind]
  exact congrArg (_ >>= ·) (funext fun _ => lift_pure _)

/-- The job that an entry keeps. -/
def keptJob (job : JobDraft) : ExceptT Panic m Job := do
  let first ← firstStep job
  pure
    { input := job.input
      first := first
      rest := job.steps.tail
      inputFile := job.inputFile
      outputFile := job.outputFile
      background := job.background }

@[simp]
theorem keptJob_ofJob [LawfulMonad m] (job : Job) :
    (keptJob (ofJob job) : ExceptT Panic m Job) = pure job := by
  unfold keptJob
  rw [firstStep_ofJob, pure_bind]
  rfl

/-- Registers a background job whose processes have been started. -/
def register (job : JobDraft) (processes : List Process) : ExceptT Panic Activity Unit := do
  let pids := processes.filterMap Process.pid?
  if pids.isEmpty then
    pure ()
  else
    let kept ← keptJob job
    let failed := match processes.getLast? with
      | some last => if last.pid?.isNone then last.status? else none
      | none => none
    ExceptT.lift do
      let moment ← (Action.ask .now : Action Moment)
      match Session.entryOf kept pids failed moment with
      | .error breach => throw (.breach breach)
      | .ok entry => do
          let session ← get
          match session.jobs.insert entry with
          | .error failure => do
              (stopProcesses pids : Action Unit)
              Activity.fail failure
          | .ok jobs => do
              set { session with jobs := jobs }
              if session.settings.showNotices then
                Action.notice .output s!"[{entry.pid.number}] {kept.input}\n"

private theorem register_ofStep (job : Job) (steps : List StartedStep) :
    register (ofJob job) (steps.map Process.ofStep) =
      ExceptT.lift (Session.register job steps) := by
  have pids : (steps.map Process.ofStep).filterMap Process.pid? =
      steps.filterMap StartedStep.pid? := by
    rw [List.filterMap_map]
    exact congrArg (steps.filterMap ·) (funext Process.pid?_ofStep)
  have failed : (match (steps.map Process.ofStep).getLast? with
        | some last => if last.pid?.isNone then last.status? else none
        | none => none) = Session.failedLastStep steps := by
    unfold Session.failedLastStep
    rw [List.getLast?_map]
    cases steps.getLast? with
    | none => rfl
    | some last => simp
  unfold register Session.register
  rw [pids, failed]
  dsimp only
  by_cases empty : (steps.filterMap StartedStep.pid?).isEmpty = true
  · rw [if_pos empty, if_pos empty, lift_pure]
  · rw [if_neg empty, if_neg empty, keptJob_ofJob]
    exact (pure_bind _ _).trans rfl

def runProgramJob (job : JobDraft) : ExceptT Panic Activity Unit := do
  let session ← ExceptT.lift (get : Activity Session)
  if job.background && session.jobs.isFull then
    ExceptT.lift (Activity.fail (.tooManyBackgroundJobs (session.jobs.capacity.getD 0)))
  else
    let streams ← ofAction (streamsOf job)
    let processes ← ofAction (startSteps job streams)
    if job.background then
      register job processes
    else
      let (waited, _) ← ofAction (ofProgram (Process.waitForAll processes))
      match waited with
      | .error stop => ExceptT.lift (throw stop)
      | .ok status => ExceptT.lift (Session.recordStatus status)

private theorem runProgramJob_ofJob (job : Job) :
    runProgramJob (ofJob job) = ExceptT.lift (Session.runProgramJob job) := by
  unfold runProgramJob Session.runProgramJob
  rw [lift_bind]
  refine congrArg (_ >>= ·) (funext fun session => ?_)
  have background : (ofJob job).background = job.background := rfl
  rw [background]
  by_cases full : (job.background && session.jobs.isFull) = true
  · rw [if_pos full, if_pos full]
  · rw [if_neg full, if_neg full, streamsOf_ofJob, ofAction_lift, lift_bind]
    refine congrArg (_ >>= ·) (funext fun streams => ?_)
    rw [startSteps_ofJob, ofAction_lift_map, bind_assoc, lift_bind]
    refine congrArg (_ >>= ·) (funext fun steps => ?_)
    rw [pure_bind]
    by_cases apart : job.background = true
    · rw [if_pos apart, if_pos apart, register_ofStep]
    · rw [if_neg apart, if_neg apart, Process.waitForAll_ofStep, ofProgram_lift_map,
        ofAction_lift_map, bind_assoc, lift_bind]
      refine congrArg (_ >>= ·) (funext fun result => ?_)
      rw [pure_bind]
      obtain ⟨waited, after⟩ := result
      cases waited with
      | error stop => rfl
      | ok status => rfl

/-! ## Builtins -/

def isBuiltin (program : String) : Bool :=
  ["bglist", "cd", "estatus", "exit", "fg"].contains program

/-- Runs the builtin of a name. -/
def runBuiltin (program : String) (arguments : List String) (outlet : Outlet) :
    ExceptT Panic Activity Unit :=
  match program with
  | "bglist" => ExceptT.lift (Builtin.bglist.run arguments outlet)
  | "cd" => ExceptT.lift (Builtin.cd.run arguments outlet)
  | "estatus" => ExceptT.lift (Builtin.estatus.run arguments outlet)
  | "exit" => ExceptT.lift (Builtin.exit.run arguments outlet)
  | "fg" => ExceptT.lift (Builtin.fg.run arguments outlet)
  | _ => throw .builtinUnknown

private theorem isBuiltin_eq (program : String) :
    isBuiltin program = (Builtin.ofName? program).isSome := by
  rw [Bool.eq_iff_iff, Builtin.ofName?, List.find?_isSome, isBuiltin, List.contains_iff_mem]
  have names : ["bglist", "cd", "estatus", "exit", "fg"] = Builtin.all.map Builtin.name := rfl
  rw [names, List.mem_map]
  simp only [decide_eq_true_eq]

private theorem runBuiltin_name (builtin : Builtin) (arguments : List String) (outlet : Outlet) :
    runBuiltin builtin.name arguments outlet = ExceptT.lift (builtin.run arguments outlet) := by
  cases builtin <;> rfl

/-- Runs a job, whose first step is looked up for its name, again for the choice of the builtin and
once more for its arguments. -/
def runJob (job : JobDraft) : ExceptT Panic Activity Unit := do
  let named ← firstStep job
  if isBuiltin named.program then
    let chosen ← firstStep job
    let first ← firstStep job
    runBuiltin chosen.program first.arguments .output
  else
    runProgramJob job

private theorem runJob_ofJob (job : Job) :
    runJob (ofJob job) = ExceptT.lift (Session.runJob job) := by
  unfold runJob Session.runJob
  rw [firstStep_ofJob, pure_bind, isBuiltin_eq]
  have program : job.program = job.first.program := rfl
  rw [program]
  cases found : Builtin.ofName? job.first.program with
  | none => exact runProgramJob_ofJob job
  | some builtin =>
      have named : builtin.name = job.first.program := by
        simpa using List.find?_some found
      have chosen := runBuiltin_name builtin job.first.arguments .output
      rw [named] at chosen
      exact chosen

/-! ## Lines -/

/-- The job that was built, which has to have a step. -/
def build (draft : JobDraft) : ExceptT Panic m JobDraft :=
  if draft.steps.isEmpty then throw .stepMissing else pure draft

def parse (line : String) : ExceptT Panic (Except Stop) (Option JobDraft) :=
  let input := Text.trim line
  match Token.ofText input with
  | [] => pure none
  | token :: tokens =>
      match Job.Reading.take? { draft := { input := input } } (token :: tokens) with
      | none => ExceptT.lift (.error (.failure (.badLine input)))
      | some reading => do
          let draft ← build reading.draft
          pure (some draft)

/-- A draft with a step is the record of the job that it describes. -/
theorem complete_eq_ok {draft : JobDraft} (some_step : draft.steps ≠ []) :
    ∃ job, draft.complete = .ok job ∧ draft = ofJob job := by
  obtain ⟨input, steps, inputFile, outputFile, background⟩ := draft
  cases steps with
  | nil => exact absurd rfl some_step
  | cons first rest => exact ⟨_, rfl, rfl⟩

private theorem parse_eq (line : String) :
    parse line = ExceptT.lift ((Job.parse line).map (Option.map ofJob)) := by
  unfold parse Job.parse
  dsimp only
  cases Token.ofText (Text.trim line) with
  | nil => rfl
  | cons token tokens =>
      dsimp only
      cases taken :
          Job.Reading.take? { draft := { input := Text.trim line } } (token :: tokens) with
      | none => rfl
      | some reading =>
          have some_step := Job.Reading.steps_ne_nil_of_take? taken
          obtain ⟨job, completes, same⟩ := complete_eq_ok some_step
          dsimp only
          rw [build, if_neg (by simpa using some_step), pure_bind, completes, same]
          rfl

/-- Tells of a failure unless it is fatal; a panic is not held up by it. -/
def report (activity : ExceptT Panic Activity Unit) : ExceptT Panic Activity Unit :=
  ExceptT.mk (tryCatch activity.run fun
    | .failure failure =>
        if failure.isFatal then throw (.failure failure)
        else Except.ok <$> Activity.ofAction (Action.complain failure)
    | .breach breach => throw (.breach breach))

private theorem perform_map (change : α → β) (activity : Activity α) (session : Session) :
    (change <$> activity).perform session =
      activity.perform session >>= fun reached => pure (reached.1.map change, reached.2) := by
  unfold Activity.perform
  simp

private theorem report_lift (activity : Activity Unit) :
    report (ExceptT.lift activity) = ExceptT.lift (Activity.report activity) := by
  have caught (session : Session) : (report (ExceptT.lift activity)).run.perform session =
      (Except.ok <$> activity : Activity (Except Panic Unit)).perform session >>= fun reached =>
        (match reached.1 with
          | .ok result => pure result
          | .error (.failure failure) =>
              if failure.isFatal then throw (.failure failure)
              else Except.ok <$> Activity.ofAction (Action.complain failure)
          | .error (.breach breach) => throw (.breach breach) :
            Activity (Except Panic Unit)).perform reached.2 := by
    refine congrArg
      ((Except.ok <$> activity : Activity (Except Panic Unit)).perform session >>= ·)
      (funext fun reached => ?_)
    obtain ⟨(failure | breach) | result, changed⟩ := reached <;> rfl
  apply ExceptT.ext
  apply ExceptT.ext
  apply StateT.ext
  intro session
  refine (caught session).trans ?_
  change _ = (Except.ok <$> Activity.report activity : Activity (Except Panic Unit)).perform session
  rw [perform_map, perform_map, Activity.perform_report, bind_assoc, bind_assoc]
  refine congrArg (activity.perform session >>= ·) (funext fun reached => ?_)
  obtain ⟨(failure | breach) | result, changed⟩ := reached
  · rw [pure_bind]
    dsimp only [Except.map, Activity.settle]
    by_cases fatal : failure.isFatal = true
    · simp only [if_pos fatal]
      rfl
    · simp only [if_neg fatal]
      exact perform_map _ _ _
  · rfl
  · rfl

def runParsed (parsed : ExceptT Panic (Except Stop) (Option JobDraft)) :
    ExceptT Panic Activity Unit :=
  match parsed.run with
  | .error stop => ExceptT.lift (throw stop)
  | .ok (.error panic) => throw panic
  | .ok (.ok none) => pure ()
  | .ok (.ok (some job)) => runJob job

def runLine (line : String) : ExceptT Panic Activity Unit :=
  report (runParsed (parse line))

private theorem runLine_eq (line : String) :
    runLine line = ExceptT.lift (Session.runLine line) := by
  have parsed : runParsed (parse line) =
      ExceptT.lift (Session.runParsed (Job.parse line)) := by
    rw [parse_eq]
    cases Job.parse line with
    | error stop => rfl
    | ok job =>
        cases job with
        | none => exact (lift_pure ()).symm
        | some job => exact runJob_ofJob job
  unfold runLine Session.runLine
  rw [parsed, report_lift]

/-! ## No panic -/

/-- Waits for processes as often as said, whatever comes of it. -/
def Process.waitTimes : Nat → List Process → ExceptT Panic Program (List Process)
  | 0, processes => pure processes
  | times + 1, processes => do
      let (_, processes) ← waitForAll processes
      waitTimes times processes

/-- However often started steps are waited for, they are started steps. -/
theorem Process.waitTimes_ofStep (times : Nat) (steps : List StartedStep) :
    ∃ waiting : Program (List Process),
      waitTimes times (steps.map ofStep) = ExceptT.lift waiting := by
  induction times generalizing steps with
  | zero => exact ⟨pure (steps.map ofStep), (lift_pure _).symm⟩
  | succ times inductionHypothesis =>
      choose waiting waits using inductionHypothesis
      refine ⟨JobControl.waitForAll steps >>= fun result => waiting result.2, ?_⟩
      rw [waitTimes, waitForAll_ofStep, lift_bind, lift_bind, bind_assoc]
      refine congrArg (_ >>= ·) (funext fun result => ?_)
      rw [lift_pure, pure_bind]
      exact waits result.2

private theorem lift_never_panics {σ : Type} (world : World σ) (action : Action α) (state : σ) :
    world.Ensures (fun _ _ => True) (ExceptT.lift action : ExceptT Panic Action α).run.run
      (fun outcome _ => ∀ panic, outcome ≠ .ok (.error panic)) state := by
  have lifted : (ExceptT.lift action : ExceptT Panic Action α).run.run =
      action.run >>= fun outcome => pure (outcome.map .ok) := by
    rw [ExceptT.run_lift, ExceptT.run_map]
    exact map_eq_pure_bind _ _
  rw [lifted, World.ensures_bind]
  refine ((Program.only_anything action.run).result_good state).mono ?_
  intro outcome after _ panic
  cases outcome with
  | ok result => exact fun equal => nomatch Except.ok.inj equal
  | error stop => exact fun equal => nomatch equal

/-- The processes of a job can be waited for any number of times. -/
theorem startSteps_waitTimes (job : Job) (streams : Redirections) (times : Nat) :
    ∃ action : Action (List Process),
      (startSteps (ofJob job) streams >>= fun processes =>
        ofProgram (Process.waitTimes times processes)) = ExceptT.lift action := by
  choose waiting waits using Process.waitTimes_ofStep times
  refine ⟨JobControl.startSteps job streams >>= fun steps =>
    (liftM (waiting steps) : Action (List Process)), ?_⟩
  rw [startSteps_ofJob, lift_bind, lift_bind, bind_assoc]
  refine congrArg (_ >>= ·) (funext fun steps => ?_)
  rw [lift_pure, pure_bind, waits, ofProgram_lift]

/-- A line is run without panic, whatever it says, in every session and however the world answers;
it stops only with a fatal failure or if a notice could not be written.  The processes of a job can
be waited for any number of times, whether or not its steps could be started. -/
theorem runLine_never_panics {σ : Type} (world : World σ) (line : String) (session : Session)
    (state : σ) :
    world.Achieves (fun _ _ => True) (runLine line).run session
        (fun outcome _ _ => outcome = .ok (.ok ()) ∨
          (∃ failure, outcome = .error (.failure failure) ∧ failure.isFatal = true) ∨
          ∃ outlet reason, outcome = .error (.breach (.noticeLost outlet reason))) state ∧
      runLine line = ExceptT.lift (Session.runLine line) ∧
      ∀ job streams times,
        world.Ensures (fun _ _ => True)
          (startSteps (ofJob job) streams >>= fun processes =>
            ofProgram (Process.waitTimes times processes)).run.run
          (fun outcome _ => ∀ panic, outcome ≠ .ok (.error panic)) state := by
  refine ⟨?_, runLine_eq line, ?_⟩
  · rw [runLine_eq]
    unfold World.Achieves
    rw [ExceptT.run_lift, perform_map, World.ensures_bind]
    refine ((Session.runLine_makes line session).result_good state).mono ?_
    rintro ⟨outcome, changed⟩ after final
    cases outcome with
    | ok result => exact .inl rfl
    | error stop =>
        have ends := final stop rfl
        cases stop with
        | failure failure => exact .inr (.inl ⟨failure, rfl, ends⟩)
        | breach breach =>
            cases breach with
            | noticeLost outlet reason => exact .inr (.inr ⟨outlet, reason, rfl⟩)
            | jobWithoutSteps => cases ends
            | entryWithoutProcesses => cases ends
  · intro job streams times
    obtain ⟨action, lifted⟩ := startSteps_waitTimes job streams times
    rw [lifted]
    exact lift_never_panics world action state

end Unguarded

end JobControl
