import JobControl.Machine.Process
/-!
# Signals and the end of processes

A signal that is neither ignored nor caught ends a process, stops it, lets it go on, or does
nothing.  When a process ends its descriptors are closed, its children have no parent any more, and
it stays until its parent collects it; the session is told by a signal.
-/

namespace JobControl.Machine

/-- What a signal does to a process that neither ignores nor catches it. -/
inductive SignalAction where
  | kill
  | stop
  | resume
  | nothing
  deriving DecidableEq, Repr

namespace SignalAction

/-- The signals by number: from one to sixty-four, all that are not named here kill. -/
def ofSignal (signal : Nat) : SignalAction :=
  if signal = 18 then .resume
  else if 19 ≤ signal && signal ≤ 22 then .stop
  else if signal = 0 || signal = 17 || signal = 23 || signal = 28 || 64 < signal then .nothing
  else .kill

end SignalAction

def killSignal : Nat := 9

def pipeSignal : Nat := 13

def shutdownSignal : Nat := 12

def signalNames : List (String × Nat) :=
  [("EXIT", 0), ("HUP", 1), ("INT", 2), ("QUIT", 3), ("ILL", 4), ("TRAP", 5), ("ABRT", 6),
   ("BUS", 7), ("FPE", 8), ("KILL", 9), ("USR1", 10), ("SEGV", 11), ("USR2", 12), ("PIPE", 13),
   ("ALRM", 14), ("TERM", 15), ("STKFLT", 16), ("CHLD", 17), ("CONT", 18), ("STOP", 19),
   ("TSTP", 20), ("TTIN", 21), ("TTOU", 22), ("URG", 23), ("XCPU", 24), ("XFSZ", 25),
   ("VTALRM", 26), ("PROF", 27), ("WINCH", 28), ("IO", 29), ("PWR", 30), ("SYS", 31)]

/-- The words for the signals that end a process, as far as they are told. -/
def signalWords : List (Nat × String) :=
  [(1, "Hangup"), (3, "Quit"), (4, "Illegal instruction"), (5, "Trace/breakpoint trap"),
   (6, "Aborted"), (7, "Bus error"), (8, "Floating point exception"), (9, "Killed"),
   (10, "User defined signal 1"), (11, "Segmentation fault"), (12, "User defined signal 2"),
   (14, "Alarm clock"), (15, "Terminated")]

def signalOfText? (text : String) : Option Nat :=
  match text.toNat? with
  | some number => if number ≤ 64 then some number else none
  | none =>
      let name := text.toUpper
      signalNames.lookup (if name.startsWith "SIG" then (name.drop 3).toString else name)

/-! ## Looking up processes -/

def process? (machine : Machine) (pid : Pid) : Option Process :=
  machine.processes.find? fun process => process.pid = pid

/-- Stores a process in the place of the one of its number. -/
def store (machine : Machine) (process : Process) : Machine :=
  { machine with
    processes := machine.processes.map fun old => if old.pid = process.pid then process else old }

def forget (machine : Machine) (pid : Pid) : Machine :=
  { machine with processes := machine.processes.filter fun process => process.pid ≠ pid }

def addProcess (machine : Machine) (parent : Pid) (surroundings : Surroundings)
    (routine : Routine) : Pid × Machine :=
  let pid : Pid := ⟨machine.nextPid⟩
  (pid,
    { machine with
      nextPid := machine.nextPid + 1
      processes := machine.processes ++
        [{ pid := pid, parent := parent, surroundings := surroundings, routine := routine }] })

def childrenOf (machine : Machine) (pid : Pid) : List Process :=
  machine.processes.filter fun process => process.parent = pid

def raiseFlag (machine : Machine) (signal : CaughtSignal) : Machine :=
  if machine.flags.contains signal then machine
  else { machine with flags := signal :: machine.flags }

/-! ## Ending -/

/-- The number of no process: the parent of processes that have lost theirs. -/
def noParent : Pid := ⟨0⟩

/-- Takes the parent from the children of a process, and forgets those that have ended. -/
def orphan (machine : Machine) (pid : Pid) : Machine :=
  { machine with
    processes := (machine.processes.filter fun process =>
        process.isAlive || process.parent ≠ pid).map fun process =>
      if process.parent = pid then { process with parent := noParent } else process }

def endProcess (machine : Machine) (process : Process) (ending : Ending) : Machine :=
  let ended : Process :=
    { process with
      surroundings := { process.surroundings with descriptors := [] }
      ending := some ending }
  let machine := (machine.store ended).orphan process.pid
  if process.parent = machine.sessionPid then machine.raiseFlag .childEnded
  else if (machine.process? process.parent).any Process.isAlive then machine
  else machine.forget process.pid

/-! ## Sending -/

def catches (process : Process) (signal : Nat) : Bool :=
  match process.routine with
  | .script interpreter => interpreter.traps.any fun trap => trap.1 = signal
  | _ => false

def deliver (machine : Machine) (process : Process) (signal : Nat) : Machine :=
  if signal = killSignal then machine.endProcess process (.killed signal)
  else if process.surroundings.ignored.contains signal then machine
  else if process.stopped then
    machine.store { process with held := process.held ++ [signal] }
  else if catches process signal then
    machine.store { process with caught := process.caught ++ [signal] }
  else
    match SignalAction.ofSignal signal with
    | .kill => machine.endProcess process (.killed signal)
    | .stop => machine.store { process with stopped := true }
    | .resume => machine
    | .nothing => machine

def deliverHeld (machine : Machine) (pid : Pid) : List Nat → Machine
  | [] => machine
  | signal :: rest =>
      match machine.process? pid with
      | some process => if process.isAlive then
            deliverHeld (machine.deliver process signal) pid rest
          else machine
      | none => machine

/-- Sends a signal to a process, the session's own included; `none` if there is no such process. -/
def signal? (machine : Machine) (pid : Pid) (signal : Nat) : Option Machine :=
  if pid = machine.sessionPid then
    some (if signal = shutdownSignal then machine.raiseFlag .shutdown else machine)
  else
    (machine.process? pid).map fun process =>
      if !process.isAlive then machine
      else if process.stopped && SignalAction.ofSignal signal = .resume then
        let machine := machine.store { process with stopped := false, held := [] }
        machine.deliverHeld pid process.held
      else machine.deliver process signal

end JobControl.Machine
