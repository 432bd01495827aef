import JobControl.Execution
/-!
# Reaping, waiting for and ending background jobs

Children that have ended are collected without waiting, one look at a time, until a look finds
none or fails.  What each look finds is noted in the registry; the jobs all of whose processes have
then been reaped are returned in the order in which they completed.
-/

namespace JobControl

/-- What a look at the children says about the registry: a process and its status. -/
def ChildNotice.reaped? : ChildNotice → Option (Pid × Int)
  | .ended pid ending => some (pid, ending.status)
  | .changed _ => none
  | .failed _ => none

/-- Notes the reaped processes of a list of notices up to the first that tells of a failure, and
gives the completed jobs. -/
def collect (registry : Registry) : List ChildNotice → List Entry × Registry
  | [] => ([], registry)
  | .failed _ :: _ => ([], registry)
  | .changed _ :: rest => collect registry rest
  | .ended pid ending :: rest =>
      let (completed, registry) := registry.markReaped pid ending.status
      let (later, registry) := collect registry rest
      (completed.toList ++ later, registry)

/-- What the answer to a look at the children says. -/
inductive Look where
  | nothingLeft
  | interrupted
  | found (notice : ChildNotice)
  deriving DecidableEq, Repr

def Look.ofAnswer : Except Errno (Option (Pid × ChildChange)) → Look
  | .ok none => .nothingLeft
  | .ok (some (pid, .ended ending)) => .found (.ended pid ending)
  | .ok (some (pid, _)) => .found (.changed pid)
  | .error .noChild => .nothingLeft
  | .error .interrupted => .interrupted
  | .error reason => .found (.failed reason)

/-- Looks at the children until a look finds nothing more or fails, at most as often as said.  A
look that was interrupted is made again; the last notice is the one of a failed look. -/
def lookAtChildren : Nat → Program (List ChildNotice)
  | 0 => pure []
  | looks + 1 => do
      match Look.ofAnswer (← Program.ask .lookAtChildren) with
      | .nothingLeft => pure []
      | .interrupted => lookAtChildren looks
      | .found (.failed reason) => pure [.failed reason]
      | .found notice => do
          let later ← lookAtChildren looks
          pure (notice :: later)

/-- Collects every child that has ended and gives the jobs that completed by it. -/
def reapChildren (registry : Registry) : Program (List Entry × Registry) := do
  let looks ← Program.ask (.bound .looksAtChildren)
  let notices ← lookAtChildren (looks + 1)
  pure (collect registry notices)

/-- Waits for processes in order.  The result is the status of the process `last`, or `known` if
it is not among them. -/
def waitForProcesses (last : Option Pid) (known : Option Int) :
    List Pid → Action (Option Int)
  | [] => pure known
  | pid :: rest => do
      let status ← waitFor pid
      waitForProcesses last (if last = some pid then some status else known) rest

/-- Waits for the processes of a job that have not been reaped, and gives the status of its last
step. -/
def Entry.wait (entry : Entry) : Action (Option Int) :=
  waitForProcesses entry.lastStep entry.lastStatus entry.processes

/-- Sends the shutdown signal to processes; that it cannot be sent makes no difference. -/
def sendShutdown : List Pid → Program Unit
  | [] => pure ()
  | pid :: rest => do
      let _ ← Program.ask (.sendShutdown pid)
      sendShutdown rest

/-- Sends the shutdown signal to processes and waits for all of them. -/
def stopProcesses (pids : List Pid) : Action Unit := do
  sendShutdown pids
  let _ ← waitForProcesses none none pids
  pure ()

end JobControl
