import JobControl.Session.Run
/-!
# The command line

The arguments say whether help or the version is shown, which lines are run, where the log is
written, and how many background jobs there may be.
-/

namespace JobControl.CommandLine

def failureStatus : Nat := 1

def historyCapacity : Nat := 10

def logName : String := ".jobsh_log"

def version : String := "0.1.0"

def summary : String :=
  "Usage:\n    jobsh [options] [<max-bg-jobs>]\n    jobsh (-h | --help)\n    jobsh --version"

/-- What `--help` shows. -/
def help : String :=
  "jobsh.\n\n" ++ summary ++ "\n\n" ++
    "Options:\n" ++
    "    -h --help       Show this screen.\n" ++
    "    --version       Show version.\n" ++
    "    -c <command>    Execute the newline-separated lines of <command>, then exit.\n" ++
    "    --log=<path>    File to write log to, defaults to ~/.jobsh_log"

/-- How the program is used: every form is covered by the first. -/
def usage : Usage :=
  { flags :=
      [⟨some 'h', some "help", false⟩, ⟨none, some "version", false⟩, ⟨some 'c', none, true⟩,
       ⟨none, some "log", true⟩]
    operands := 1
    summary := summary }

def fileIn (directory name : RawText) : RawText :=
  if directory.endsWith "/" then directory ++ name else directory ++ "/" ++ name

/-- The path of the log: the one asked for, or one in the home directory. -/
def logPath (asked : Option String) : Action (Option RawText) := do
  match asked with
  | some path => pure (some (.ofText path))
  | none =>
      let home ← Builtin.homeDirectory
      pure (home.map fun directory => fileIn directory logName)

/-- Opens the log.  The program runs without one if it cannot be opened. -/
def openLog (asked : Option String) : Action Unit := do
  match ← logPath asked with
  | none => pure ()
  | some path =>
      match ← Action.ask (.openOutput path .shared) with
      | .ok _ => pure ()
      | .error fault =>
          Action.notice .errors s!"jobsh: unable to open {path.shown}: {fault.message}\n"

/-- The limit on background jobs that an operand asks for. -/
def limitOf : List String → Except Failure (Option Nat)
  | [] => .ok none
  | text :: _ => (Settings.readLimit text).map some

/-- Runs a session with settings and gives what became of it. -/
def runSession (settings : Settings) (activity : Activity Unit) : Action Unit := do
  let session ← Session.start settings
  let (result, _) ← (activity.perform session : Action (Except Stop Unit × Session))
  match result with
  | .ok _ => pure ()
  | .error stop => throw stop

/-- Does what the arguments say; the result is the status of the program. -/
def obey (arguments : Arguments) : Action Nat := do
  if arguments.hasLong "help" then
    Action.notice .output (help ++ "\n")
    pure 0
  else
    openLog (arguments.longArgument? "log")
    if arguments.hasLong "version" then
      Action.notice .output s!"jobsh version {version}\n"
      pure 0
    else
      match limitOf arguments.operands with
      | .error failure => Action.fail failure
      | .ok limit => do
          match arguments.shortArgument? 'c' with
          | some text =>
              runSession (Settings.noninteractive.withBackgroundLimit limit)
                (Session.runText text)
          | none =>
              runSession ((Settings.interactive historyCapacity).withBackgroundLimit limit)
                Session.runInput
          pure 0

def breachStatus : Nat := 101

/-- Runs the program with its arguments and gives its status. -/
def run (arguments : List String) : Program Nat := do
  match usage.read arguments with
  | .error fault => do
      let _ ← Program.ask (.write .errors (fault.message ++ "\n"))
      pure failureStatus
  | .ok read => do
      match ← (obey read).run with
      | .ok status => pure status
      | .error (.breach breach) => do
          let _ ← Program.ask (.write .errors (breach.message ++ "\n"))
          pure breachStatus
      | .error (.failure failure) => do
          let _ ← (Action.complain failure).run
          pure failureStatus

end JobControl.CommandLine
