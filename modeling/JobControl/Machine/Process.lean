import JobControl.Machine.FileTree
import JobControl.Machine.Filter
import JobControl.Machine.Script.Command
/-!
# Processes

A process has what it inherits, its descriptors, its working directory and its environment, and a
routine, which says what it does next.  Descriptors lead to open files, and an open file is shared
by all who inherited it: they read on from one place.  A process that has ended is kept until its
parent collects it.
-/

namespace JobControl.Machine

abbrev PipeId := Nat

abbrev OpenFileId := Nat

/-- What an open file leads to. -/
inductive OpenTarget where
  | node (node : NodeId)
  | readEnd (pipe : PipeId)
  | writeEnd (pipe : PipeId)
  deriving DecidableEq, Repr

/-- An open file with the place at which it is read or written next. -/
structure OpenFile where
  target : OpenTarget
  offset : Nat := 0
  appends : Bool := false
  /-- Whether what is written goes to the disk at once, which takes whole sectors only. -/
  direct : Bool := false
  deriving DecidableEq, Repr

/-- What a process inherits from the one that starts it. -/
structure Surroundings where
  descriptors : List (Nat × OpenFileId)
  /-- The descriptors that are closed in a child that runs a program. -/
  closedOnExec : List Nat := []
  directory : NodeId
  environment : List (String × String)
  ignored : List Nat := []
  deriving DecidableEq, Repr

namespace Surroundings

def openFile? (surroundings : Surroundings) (descriptor : Nat) : Option OpenFileId :=
  surroundings.descriptors.lookup descriptor

def closing (surroundings : Surroundings) (descriptor : Nat) : Surroundings :=
  { surroundings with
    descriptors := surroundings.descriptors.filter fun entry => entry.1 ≠ descriptor
    closedOnExec := surroundings.closedOnExec.filter (· ≠ descriptor) }

def opening (surroundings : Surroundings) (descriptor : Nat) (file : OpenFileId) :
    Surroundings :=
  let closed := surroundings.closing descriptor
  { closed with descriptors := (descriptor, file) :: closed.descriptors }

def marking (surroundings : Surroundings) (descriptor : Nat) : OnExec → Surroundings
  | .closed => { surroundings with closedOnExec := descriptor :: surroundings.closedOnExec }
  | .passedOn => surroundings

/-- The descriptors that a child keeps when it runs a program. -/
def passedOn (surroundings : Surroundings) : List (Nat × OpenFileId) :=
  surroundings.descriptors.filter fun entry => !surroundings.closedOnExec.contains entry.1

def holds (surroundings : Surroundings) (file : OpenFileId) : Bool :=
  surroundings.descriptors.any fun entry => entry.2 = file

def freeDescriptor (surroundings : Surroundings) : Nat :=
  let taken := surroundings.descriptors.map Prod.fst
  ((List.range (taken.length + 1)).find? fun n => !taken.contains (n + 3)).getD 0 + 3

def value? (surroundings : Surroundings) (name : String) : Option String :=
  surroundings.environment.lookup name

def setting (surroundings : Surroundings) (name value : String) : Surroundings :=
  { surroundings with
    environment :=
      (surroundings.environment.filter fun entry => entry.1 ≠ name) ++ [(name, value)] }

end Surroundings

namespace Script

/-- Something that remains to be done by an interpreter. -/
inductive Frame where
  | run (command : Command)
  | connect (onFailure : Bool) (second : Command)
  | negate
  | choose (yes no : Command)
  /-- Goes on with a loop as the status of its test tells; `last` is the status of its body. -/
  | decide (untilSuccess : Bool) (test body : Command) (last : Nat)
  | again (untilSuccess : Bool) (test body : Command)
  | each (name : String) (values : List String) (body : Command)
  | restore (descriptors : List (Nat × OpenFileId))
  | await (child : Pid)
  | awaitAll
  | write (descriptor : Nat) (bytes : ByteArray)
  /-- Reads a line for some names; `taken` has been read of it. -/
  | readLine (names : List String) (taken : ByteArray)
  | setStatus (status : Nat)
  | finish

/-- A script that is being run. -/
structure Interpreter where
  name : String
  parameters : List String
  /-- The process of the script, also in the processes that the script makes of itself. -/
  scriptPid : Pid
  bindings : List (String × String) := []
  status : Nat := 0
  lastBackground : Option Pid := none
  /-- The commands to run on signals; number zero is the end of the script. -/
  traps : List (Nat × String) := []
  frames : List Frame

end Script

/-- A filter at work: the program it is, what it has yet to read, and its status so far.  An
operand that is missing stands for the standard input. -/
structure FilterRun where
  utility : Utility
  filter : Filter
  operands : List (Option String)
  status : Nat := 0

/-- What a process does next. -/
inductive Routine where
  | exit (status : Nat)
  | write (descriptor : Nat) (bytes : ByteArray) (next : Routine)
  | pause (wake : Nat) (next : Routine)
  | repeatText (text : ByteArray)
  /-- Makes an open file direct, or no longer so. -/
  | setDirect (descriptor : Nat) (direct : Bool) (next : Routine)
  | copyBlocks
  /-- Gives a file another name. -/
  | rename (path renamed : RawText)
  /-- Reads words to the end of the input, and then runs a program with them. -/
  | gatherWords (taken : ByteArray) (program : String) (arguments : List String)
  | nextInput (run : FilterRun)
  | reading (run : FilterRun) (descriptor : Nat) (operand : Option String)
  | gather (descriptor : Nat) (taken : ByteArray) (name : String) (parameters : List String)
  | script (interpreter : Script.Interpreter)

/-- A process. -/
structure Process where
  pid : Pid
  parent : Pid
  surroundings : Surroundings
  routine : Routine
  stopped : Bool := false
  held : List Nat := []
  /-- Signals that came and have a command to be run on them. -/
  caught : List Nat := []
  ending : Option Ending := none

namespace Process

def isAlive (process : Process) : Bool :=
  process.ending.isNone

def canAct (process : Process) : Bool :=
  process.isAlive && !process.stopped

def wakeTime? (process : Process) : Option Nat :=
  match process.routine with
  | .pause wake _ => if process.canAct then some wake else none
  | _ => none

end Process

end JobControl.Machine

namespace JobControl

/-- A machine: its files, its processes, and the session that is run on it. -/
structure Machine where
  tree : Machine.FileTree
  files : Array Machine.OpenFile := #[]
  /-- What has been written to each pipe and not yet been read. -/
  pipes : Array ByteArray := #[]
  /-- The processes other than the session, in the order in which they were started. -/
  processes : List Machine.Process := []
  clock : Nat := 0
  nextPid : Nat := 71001
  sessionPid : Pid := ⟨71000⟩
  session : Machine.Surroundings
  /-- How many more descriptors the session may have, if there is a limit. -/
  spare : Option Nat := none
  flags : List CaughtSignal := []
  /-- What the session has read of its standard input beyond the line it asked for. -/
  inputBuffer : ByteArray := ByteArray.empty
  /-- What the session has yet to write to its output because it was refused before. -/
  unsent : ByteArray := ByteArray.empty
  provided : String := ""

end JobControl
