import JobControl.Redirection
/-!
# Starting the processes of a job and waiting for them

Each step of a job becomes a process.  In a pipeline a step reads what the step before it writes,
through a pipe whose ends the session closes as soon as the step that owns them has been started.
The ends are made so that they are closed in the children of the session, but for those that become
a stream of the child.  A step whose program cannot run counts as ended at once, with status 127 if
the program was not found and 126 otherwise, and the others go on.  When a pipe cannot be made, the
steps already started are waited for and the job fails.
-/

namespace JobControl

/-- What has become of a step. -/
inductive StepState where
  | running (pid : Pid)
  | ended (pid : Pid) (status : Int)
  | neverStarted (status : Int)
  deriving DecidableEq, Repr

/-- A step that has been started, or could not be. -/
structure StartedStep where
  commandLine : String
  state : StepState
  deriving DecidableEq, Repr

namespace StartedStep

def pid? (step : StartedStep) : Option Pid :=
  match step.state with
  | .running pid => some pid
  | .ended pid _ => some pid
  | .neverStarted _ => none

def status? (step : StartedStep) : Option Int :=
  match step.state with
  | .running _ => none
  | .ended _ status => some status
  | .neverStarted status => some status

end StartedStep

/-- What the answer to a wait brings: the status of the process, or that waiting failed.  It brings
nothing, and the wait is made again, when a signal came or the process only stopped or went on. -/
def waitResult? (pid : Pid) : Except Errno ChildChange → Option (Except Stop Int)
  | .ok (.ended ending) => some (.ok ending.status)
  | .ok .stopped => none
  | .ok .continued => none
  | .error .interrupted => none
  | .error _ => some (.error (.failure (.waitFailed pid.number)))

/-- Waits for a process until a wait brings something, at most as often as said. -/
def waitTimes (pid : Pid) : Nat → Action Int
  | 0 => Action.fail (.waitFailed pid.number)
  | waits + 1 => do
      match waitResult? pid (← Action.ask (.wait pid)) with
      | some result => ExceptT.mk (pure result)
      | none => waitTimes pid waits

/-- Waits until a process has ended, and gives its status. -/
def waitFor (pid : Pid) : Action Int := do
  let again ← Action.ask (.bound .waits)
  waitTimes pid (again + 1)

/-- Waits until a step has ended.  The step is returned with the status, or as it was if the wait
failed; the status of a step is waited for only once. -/
def StartedStep.wait (step : StartedStep) : Program (Except Stop Int × StartedStep) :=
  match step.state with
  | .ended _ status => pure (.ok status, step)
  | .neverStarted status => pure (.ok status, step)
  | .running pid => do
      match ← (waitFor pid).run with
      | .ok status => pure (.ok status, { step with state := .ended pid status })
      | .error stop => pure (.error stop, step)

/-- Waits for steps in order until a wait fails, and gives the status of the last step. -/
def waitForAll : List StartedStep → Program (Except Stop (Option Int) × List StartedStep)
  | [] => pure (.ok none, [])
  | step :: rest => do
      match ← step.wait with
      | (.error stop, step) => pure (.error stop, step :: rest)
      | (.ok status, step) => do
          let (result, rest) ← waitForAll rest
          pure (result.map fun last => some (last.getD status), step :: rest)

/-- The failure and the status of a step that could not be started. -/
def launchFailure (program : String) : AccessFault → Failure × Int
  | .refused .noEntry => (.commandNotFound program, 127)
  | _ => (.commandNotExecutable program, 126)

/-- Starts a step.  That a step cannot be started is told and does not stop the job. -/
def startStep (step : Step) (streams : Redirections) : Action StartedStep := do
  let answer ← Action.ask (.launch
    { program := step.program
      arguments := step.arguments
      input := streams.input
      output := streams.output
      errors := streams.errors })
  match answer with
  | .ok pid => pure ⟨step.commandLine, .running pid⟩
  | .error fault => do
      let (failure, status) := launchFailure step.program fault
      Action.complain failure
      pure ⟨step.commandLine, .neverStarted status⟩

/-- Starts the steps of a pipeline after those already started.  The first of them reads from
`source`, which is closed when it has been started or when no pipe can be made. -/
def startPipeline (source : Option Handle) (started : List StartedStep) :
    List Step → Action (List StartedStep)
  | [] => pure started
  | [last] => do
      let step ← startStep last { input := source }
      Redirections.closeHandle source
      pure (started ++ [step])
  | step :: next :: rest => do
      match ← Action.ask (.makePipe .closed) with
      | .error reason => do
          Redirections.closeHandle source
          let (waited, _) ← waitForAll started
          match waited with
          | .error stop => throw stop
          | .ok _ => Action.fail (.pipe reason)
      | .ok (readEnd, writeEnd) => do
          let step ← startStep step { input := source, output := some writeEnd }
          Redirections.closeHandle source
          Action.ask (.close writeEnd)
          startPipeline (some readEnd) (started ++ [step]) (next :: rest)

/-- Starts the steps of a job.  The streams of a single step are those given, which are closed;
a pipeline has none given. -/
def startSteps (job : Job) (streams : Redirections) : Action (List StartedStep) :=
  if job.isPipeline then
    startPipeline none [] job.steps
  else do
    let step ← startStep job.first streams
    streams.close
    pure [step]

end JobControl
