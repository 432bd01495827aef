import JobControl.Reaping
/-!
# The state of a session

A session keeps its settings, its background jobs, the status of the last foreground job, the
directory before the last change, and whether it has been asked to end.  What an activity changed
before it stopped stays changed.
-/

namespace JobControl

/-- What a session remembers from line to line. -/
structure Session where
  settings : Settings
  jobs : Registry
  lastStatus : Option Int := none
  previousDirectory : Option RawText := none
  exitRequested : Bool := false
  deriving DecidableEq, Repr

/-- Something that a session does: it makes calls, changes the session, and may stop. -/
abbrev Activity (α : Type) : Type :=
  ExceptT Stop (StateT Session Program) α

namespace Activity

variable {α : Type}

def ofAction (action : Action α) : Activity α :=
  ExceptT.mk (StateT.lift action.run)

instance : MonadLift Action Activity where
  monadLift := ofAction

def fail (failure : Failure) : Activity α :=
  throw (.failure failure)

def perform (activity : Activity α) (session : Session) :
    Program (Except Stop α × Session) :=
  (ExceptT.run activity).run session

/-- Tells of a failure unless it is fatal; a fatal failure, like a breach, stops the session. -/
def report (activity : Activity Unit) : Activity Unit :=
  tryCatch activity fun
    | .failure failure =>
        if failure.isFatal then throw (.failure failure)
        else ofAction (Action.complain failure)
    | .breach breach => throw (.breach breach)

end Activity

namespace Session

def ofSettings (settings : Settings) : Session :=
  { settings := settings, jobs := Registry.ofCapacity settings.backgroundLimit }

/-- Begins to catch the signals that a session acts on, and gives the session. -/
def start (settings : Settings) : Action Session := do
  match ← Action.ask (.catchSignal .childEnded) with
  | .error _ => Action.fail (.other "failed to install SIGCHLD handler")
  | .ok _ => pure ()
  match ← Action.ask (.catchSignal .shutdown) with
  | .error _ => Action.fail (.other "failed to install SIGUSR2 handler")
  | .ok _ => pure ()
  pure (ofSettings settings)

/-- Records the status of a foreground job, if there is one. -/
def recordStatus : Option Int → Activity Unit
  | none => pure ()
  | some status => modify fun session => { session with lastStatus := some status }

end Session

end JobControl
