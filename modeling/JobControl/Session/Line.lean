import JobControl.Builtin
import JobControl.Job.Parse
/-!
# Running one line

A line is read as a job.  A builtin runs in the session, whatever else the line says.  Any other
job in the background is first checked against the limit; then the files of a single step are
opened, the steps are started, and the job is either registered or waited for.
-/

namespace JobControl.Session

/-- The streams of a job: the files it names if it has one step, the session's own otherwise. -/
def streamsOf (job : Job) : Action Redirections :=
  if job.isPipeline then pure {} else Redirections.resolve job

/-- The entry for a background job with these started processes; `failed` is the status of a last
step that never started. -/
def entryOf (job : Job) (pids : List Pid) (failed : Option Int) (started : Moment) :
    Except Breach Entry :=
  (Entry.ofProcesses job pids started).map fun entry =>
    match failed with
    | some status => entry.withFailedLastStep status
    | none => entry

/-- The status of the last step, if that step never started. -/
def failedLastStep (steps : List StartedStep) : Option Int :=
  match steps.getLast? with
  | some last => if last.pid?.isNone then last.status? else none
  | none => none

/-- Registers a background job whose steps have been started.  A job of which no step could be
started is not registered; a job that the registry refuses is stopped. -/
def register (job : Job) (steps : List StartedStep) : Activity Unit := do
  let pids := steps.filterMap StartedStep.pid?
  if pids.isEmpty then
    pure ()
  else
    let moment ← (Action.ask .now : Action Moment)
    match entryOf job pids (failedLastStep steps) moment with
    | .error breach => throw (.breach breach)
    | .ok entry => do
        let session ← get
        match session.jobs.insert entry with
        | .error failure => do
            (stopProcesses pids : Action Unit)
            Activity.fail failure
        | .ok jobs => do
            set { session with jobs := jobs }
            if session.settings.showNotices then
              Action.notice .output s!"[{entry.pid.number}] {job.input}\n"

def runProgramJob (job : Job) : Activity Unit := do
  let session ← get
  if job.background && session.jobs.isFull then
    Activity.fail (.tooManyBackgroundJobs (session.jobs.capacity.getD 0))
  else
    let streams ← (streamsOf job : Action Redirections)
    let steps ← (startSteps job streams : Action (List StartedStep))
    if job.background then
      register job steps
    else
      let (waited, _) ← (waitForAll steps :
        Action (Except Stop (Option Int) × List StartedStep))
      match waited with
      | .error stop => throw stop
      | .ok status => recordStatus status

def runJob (job : Job) : Activity Unit :=
  match Builtin.ofName? job.program with
  | some builtin => builtin.run job.first.arguments .output
  | none => runProgramJob job

def runParsed : Except Stop (Option Job) → Activity Unit
  | .ok none => pure ()
  | .ok (some job) => runJob job
  | .error stop => throw stop

/-- Reads and runs one line; failures that end only the line are told. -/
def runLine (line : String) : Activity Unit :=
  Activity.report (runParsed (Job.parse line))

end JobControl.Session
