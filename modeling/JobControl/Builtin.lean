import JobControl.Session.Background
/-!
# Builtins

Five names stand for what the session does itself.  Each has a usage, and its arguments are read
by it before anything is done.
-/

namespace JobControl

/-- A command that the session runs itself. -/
inductive Builtin where
  | bglist
  | cd
  | estatus
  | exit
  | fg
  deriving DecidableEq, Repr

namespace Builtin

def name : Builtin → String
  | .bglist => "bglist"
  | .cd => "cd"
  | .estatus => "estatus"
  | .exit => "exit"
  | .fg => "fg"

def all : List Builtin :=
  [.bglist, .cd, .estatus, .exit, .fg]

def ofName? (name : String) : Option Builtin :=
  all.find? fun builtin => builtin.name = name

/-- How a builtin is used: none has flags, and two take an operand. -/
def usage (builtin : Builtin) : Usage :=
  let (operands, form) := match builtin with
    | .cd => (1, "cd [<dir>]")
    | .fg => (1, "fg [<pid>]")
    | other => (0, other.name)
  { flags := [], operands := operands, summary := "Usage:\n    " ++ form }

/-- The operand given to a builtin, if its arguments follow the usage. -/
def operand? (builtin : Builtin) (arguments : List String) : Except Failure (Option String) :=
  match builtin.usage.read arguments with
  | .ok read => .ok read.operands.head?
  | .error fault => .error (.usage fault)

def largestPid : Nat := 2147483647

/-- The process that a text names: only positive numbers can name a background job. -/
def readPid (text : String) : Except Failure Pid :=
  match Text.positiveUpTo? largestPid text.toList with
  | some number => .ok ⟨number⟩
  | none => .error (.jobNotFound text)

/-- The home directory: the one that the environment names, or else the account. -/
def homeDirectory : Action (Option RawText) := do
  match ← Action.ask (.environment "HOME") with
  | some home => if home.isEmpty then Action.ask .accountHome else pure (some home)
  | none => Action.ask .accountHome

def currentDirectory : Action RawText := do
  match ← Action.ask .currentDirectory with
  | .ok directory => pure directory
  | .error reason => Action.fail (.access (.refused reason))

/-- The directory to change to: the home directory without an operand or for `~`, the one before
the last change for `-`, and otherwise the one named. -/
def directoryToEnter (previous : Option RawText) (operand : Option String) : Action RawText := do
  match operand with
  | some "-" =>
      match previous with
      | some directory => pure directory
      | none => Action.fail (.builtin "cd: OLDPWD not set" 1)
  | some named => if named = "~" then enterHome else pure (.ofText named)
  | none => enterHome
where
  enterHome : Action RawText := do
    match ← homeDirectory with
    | some home => pure home
    | none => Action.fail (.builtin "cd: HOME not set" 1)

/-- Enters a directory and tells which one it is; what is told of a directory is its name as it is
shown. -/
def changeDirectory (operand : Option String) (outlet : Outlet) : Activity Unit := do
  let session ← get
  let directory ← (directoryToEnter session.previousDirectory operand : Action RawText)
  let before ← (currentDirectory : Action RawText)
  match ← (Action.ask (.changeDirectory directory) : Action (Except AccessFault Unit)) with
  | .error _ => Activity.fail (.directoryChange directory.shown)
  | .ok _ => do
      set { session with previousDirectory := some before }
      let now ← (currentDirectory : Action RawText)
      Action.write outlet (now.shown ++ "\n")

def listJobs (outlet : Outlet) : List Entry → Action Unit
  | [] => pure ()
  | entry :: rest => do
      Action.write outlet (entry.describe ++ "\n")
      listJobs outlet rest

def runWith (builtin : Builtin) (operand : Option String) (outlet : Outlet) : Activity Unit :=
  match builtin with
  | .bglist => do
      listJobs outlet (← get).jobs.entries
  | .cd => changeDirectory operand outlet
  | .estatus => do
      Action.write outlet (toString ((← get).lastStatus.getD 0) ++ "\n")
  | .exit => Session.exit outlet
  | .fg =>
      match operand with
      | none => Session.bringToForeground none outlet
      | some text =>
          match readPid text with
          | .ok pid => Session.bringToForeground (some pid) outlet
          | .error failure => Activity.fail failure

def run (builtin : Builtin) (arguments : List String) (outlet : Outlet) : Activity Unit :=
  match builtin.operand? arguments with
  | .ok operand => builtin.runWith operand outlet
  | .error failure => Activity.fail failure

end Builtin

end JobControl
