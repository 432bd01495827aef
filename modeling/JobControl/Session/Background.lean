import JobControl.Session.Basic
/-!
# Background jobs of a session

Between two lines the session acts on the signals it has caught: it reaps its children and tells
which jobs are done, and tells of a shutdown signal.  On request it takes a background job to the
foreground, or signals all background jobs and asks itself to end.
-/

namespace JobControl.Session

/-- The line that tells what happened to a background job. -/
def jobNotice (entry : Entry) (event : String) : String :=
  s!"[{entry.pid.number}] {event}\t{entry.job.input}\n"

def announceDone : List Entry → Action Unit
  | [] => pure ()
  | entry :: rest => do
      Action.notice .output (jobNotice entry "Done")
      announceDone rest

def processSignals : Activity Unit := do
  if ← (Action.ask (.takeFlag .childEnded) : Action Bool) then
    let session ← get
    let (completed, jobs) ← (reapChildren session.jobs : Action (List Entry × Registry))
    set { session with jobs := jobs }
    announceDone completed
  if ← (Action.ask (.takeFlag .shutdown) : Action Bool) then
    let moment ← (Action.ask .now : Action Moment)
    Action.notice .errors s!"jobsh: received SIGUSR2 at {moment.describe}\n"

/-- Takes out the background job with a name, or the oldest. -/
def takeJob (registry : Registry) : Option Pid → Except Failure (Entry × Registry)
  | some pid => registry.remove pid
  | none => registry.removeOldest

/-- Takes out a background job, shows its line, waits for it and records its status. -/
def bringToForeground (pid : Option Pid) (outlet : Outlet) : Activity Unit := do
  let session ← get
  match takeJob session.jobs pid with
  | .error failure => Activity.fail failure
  | .ok (entry, jobs) => do
      set { session with jobs := jobs }
      Action.write outlet (entry.job.input ++ "\n")
      let status ← (entry.wait : Action (Option Int))
      recordStatus status

def announceTerminated (outlet : Outlet) : List Entry → Action Unit
  | [] => pure ()
  | entry :: rest => do
      Action.write outlet (jobNotice entry "Terminated")
      announceTerminated outlet rest

/-- Sends the shutdown signal to every process of some jobs. -/
def signalJobs : List Entry → Program Unit
  | [] => pure ()
  | entry :: rest => do
      sendShutdown entry.processes
      signalJobs rest

/-- Signals every background job and asks the session to end.  The jobs are not waited for. -/
def exit (outlet : Outlet) : Activity Unit := do
  let session ← get
  let (entries, jobs) := session.jobs.drain
  set { session with jobs := jobs }
  (signalJobs entries : Action Unit)
  announceTerminated outlet entries
  modify fun session => { session with exitRequested := true }

end JobControl.Session
