import JobControl.Machine.Script.Run
/-!
# Running the processes

Processes act in turns.  A turn of a process is one step of its routine, and a step that changes
nothing tells that the process waits for others.  Time passes a little with every round; when
nothing changed in a round, the clock goes on to the time for which the next process waits.
-/

namespace JobControl.Machine

/-! ## Steps of a process -/

def pieceSize : Nat := 65536

def continueWith (machine : Machine) (process : Process) (routine : Routine) : Machine × Bool :=
  (machine.store { process with routine := routine }, true)

def writing (bytes : ByteArray) (next : Routine) : Routine :=
  if bytes.isEmpty then next else .write 1 bytes next

/-- A process writes to a descriptor; `next` says what it does when some of the bytes are left. -/
def stepWrite (machine : Machine) (process : Process) (descriptor : Nat) (bytes : ByteArray)
    (next : Routine) : Machine × Bool :=
  match machine.send process.surroundings descriptor bytes with
  | (.accepted count, machine) =>
      let left := bytes.extract count bytes.size
      machine.continueWith process
        (if left.isEmpty then next else .write descriptor left next)
  | (.notYet, _) => (machine, false)
  | (.refused reason, _) =>
      if reason = .brokenPipe && !process.surroundings.ignored.contains pipeSignal then
        (machine.endProcess process (.killed pipeSignal), true)
      else if descriptor = 2 then machine.continueWith process next
      else machine.continueWith process (.exit 1)

/-- The words of a utility for an input that cannot be opened or read. -/
def inputWords (utility : Utility) (operand : String) (opening : Bool) (reason : Errno) : String :=
  match utility, opening with
  | .head, true => s!"cannot open '{operand}' for reading: {reason.words}"
  | .head, false => s!"error reading '{operand}': {reason.words}"
  | .sort, true => s!"cannot read: {operand}: {reason.words}"
  | .sort, false => s!"read failed: {operand}: {reason.words}"
  | _, _ => s!"{operand}: {reason.words}"

/-- The name that a filter shows for an operand: the standard input has none, and only the counts
show the sign for it. -/
def shownName (utility : Utility) : Option String → Option String
  | none => none
  | some operand => if operand = "-" && utility ≠ .wc then none else some operand

def afterReaction (run : FilterRun) (reaction : Reaction) (next : FilterRun → Routine) :
    Routine :=
  let run := { run with filter := reaction.filter }
  writing reaction.output
    (match reaction.exit with
    | some status => .exit status
    | none => if reaction.leaves then .nextInput run else next run)

/-- What a filter does after an input that cannot be opened or read.  The counts of what was read
are shown nevertheless. -/
def afterFault (run : FilterRun) (operand : Option String) (opening : Bool) (reason : Errno) :
    Routine :=
  let words := inputWords run.utility (operand.getD "-") opening reason
  let status := run.utility.troubleStatus
  let run := { run with status := max status run.status }
  .write 2 s!"{run.utility.name}: {words}\n".toUTF8
    (if run.utility = .sort then .exit status
    else if run.utility = .wc && !opening then afterReaction run run.filter.endInput .nextInput
    else .nextInput run)

def stepNextInput (machine : Machine) (process : Process) (run : FilterRun) : Machine × Bool :=
  match run.operands with
  | [] =>
      let (bytes, status) := run.filter.finish
      machine.continueWith process (writing bytes (.exit (max status run.status)))
  | operand :: rest =>
      let run := { run with operands := rest }
      let beginning (descriptor : Nat) : Routine :=
        afterReaction run (run.filter.beginInput (shownName run.utility operand)) fun run =>
          .reading run descriptor operand
      match operand.filter (· ≠ "-") with
      | none => machine.continueWith process (beginning 0)
      | some path =>
          match machine.openForReading process.surroundings.directory path with
          | .error reason => machine.continueWith process (afterFault run operand true reason)
          | .ok (file, machine) =>
              let descriptor := process.surroundings.freeDescriptor
              machine.continueWith
                { process with surroundings := process.surroundings.opening descriptor file }
                (beginning descriptor)

def stepReading (machine : Machine) (process : Process) (run : FilterRun) (descriptor : Nat)
    (operand : Option String) : Machine × Bool :=
  let closed : Process :=
    if descriptor = 0 then process
    else { process with surroundings := process.surroundings.closing descriptor }
  match machine.receive process.surroundings descriptor pieceSize with
  | (.piece piece, machine) =>
      let reaction := run.filter.feed piece
      machine.continueWith (if reaction.leaves then closed else process)
        (afterReaction run reaction fun run => .reading run descriptor operand)
  | (.atEnd, machine) =>
      machine.continueWith closed (afterReaction run run.filter.endInput .nextInput)
  | (.notYet, _) => (machine, false)
  | (.refused reason, machine) =>
      machine.continueWith closed (afterFault run operand false reason)

def stepGather (machine : Machine) (process : Process) (descriptor : Nat) (taken : ByteArray)
    (name : String) (parameters : List String) : Machine × Bool :=
  match machine.receive process.surroundings descriptor pieceSize with
  | (.piece piece, machine) =>
      machine.continueWith process (.gather descriptor (taken ++ piece) name parameters)
  | (.notYet, _) => (machine, false)
  | (_, machine) =>
      machine.continueWith process
        (Script.routineOfText process.pid name parameters (Text.readLossy taken))

/-- Copies a block from the input to the output.  A block that is no whole sector ends direct
writing. -/
def stepCopyBlocks (machine : Machine) (process : Process) : Machine × Bool :=
  match machine.receive process.surroundings 0 sectorSize with
  | (.piece piece, machine) =>
      let block : Routine := .write 1 piece .copyBlocks
      machine.continueWith process
        (if isWholeSectors piece.size then block else .setDirect 1 false block)
  | (.atEnd, machine) => machine.continueWith process (.exit 0)
  | (.notYet, _) => (machine, false)
  | (.refused reason, machine) =>
      let words := s!"dd: error reading 'standard input': {reason.words}\n"
      machine.continueWith process (.write 2 words.toUTF8 (.exit 1))

/-- Gives a file another name. -/
def stepRename (machine : Machine) (process : Process) (path renamed : RawText) :
    Machine × Bool :=
  match machine.tree.rename process.surroundings.directory path renamed with
  | .ok tree => { machine with tree := tree }.continueWith process (.exit 0)
  | .error reason =>
      let words := s!"cannot move '{path.shown}' to '{renamed.shown}': {reason.words}"
      machine.continueWith process (Utility.mv.complain words)

/-- Gathers words for a program, and becomes the program when there are no more. -/
def stepGatherWords (machine : Machine) (process : Process) (taken : ByteArray)
    (program : String) (arguments : List String) : Machine × Bool :=
  match machine.receive process.surroundings 0 pieceSize with
  | (.piece piece, machine) =>
      machine.continueWith process (.gatherWords (taken ++ piece) program arguments)
  | (.notYet, _) => (machine, false)
  | (_, machine) =>
      let words := (RawText.mk taken.toList).cutAt Counts.isSpace |>.filter (!·.isEmpty)
      match findProgram machine process.surroundings program
        (arguments.map RawText.ofText ++ words) with
      | .ok found =>
          machine.continueWith process
            (routineOf machine process.surroundings process.pid found)
      | .error reason =>
          machine.continueWith process (Utility.xargs.complain s!"{program}: {reason.words}")

def stepProcess (machine : Machine) (process : Process) : Machine × Bool :=
  match process.routine with
  | .exit status => (machine.endProcess process (.exited (status % 256)), true)
  | .write descriptor bytes next => machine.stepWrite process descriptor bytes next
  | .pause wake next =>
      if wake ≤ machine.clock then machine.continueWith process next else (machine, false)
  | .repeatText text => machine.stepWrite process 1 text process.routine
  | .setDirect descriptor direct next =>
      (machine.setDirect process.surroundings descriptor direct).continueWith process next
  | .copyBlocks => machine.stepCopyBlocks process
  | .rename path renamed => machine.stepRename process path renamed
  | .gatherWords taken program arguments =>
      machine.stepGatherWords process taken program arguments
  | .nextInput run => machine.stepNextInput process run
  | .reading run descriptor operand => machine.stepReading process run descriptor operand
  | .gather descriptor taken name parameters =>
      machine.stepGather process descriptor taken name parameters
  | .script interpreter =>
      Script.Running.step { machine := machine, process := process, interpreter := interpreter }

/-! ## Rounds -/

/-- The processes of a list act in turn; whether anything changed. -/
def stepAll (machine : Machine) : List Pid → Machine × Bool
  | [] => (machine, false)
  | pid :: rest =>
      match machine.process? pid with
      | none => machine.stepAll rest
      | some process =>
          if process.canAct then
            let (machine, changed) := machine.stepProcess process
            let (machine, changedLater) := machine.stepAll rest
            (machine, changed || changedLater)
          else machine.stepAll rest

/-- The time that passes in a round, in billionths of a second. -/
def roundTime : Nat := 10000

def nextWake? (machine : Machine) : Option Nat :=
  (machine.processes.filterMap Process.wakeTime?).min?

/-- Every process acts once; `none` if nothing can change any more. -/
def round? (machine : Machine) : Option Machine :=
  let (machine, changed) := machine.stepAll (machine.processes.map Process.pid)
  if changed then some { machine with clock := machine.clock + roundTime }
  else machine.nextWake?.map fun time => { machine with clock := max time machine.clock }

/-- Rounds until a condition holds or nothing can change, at most as many as said. -/
def runRounds (machine : Machine) (condition : Machine → Bool) : Nat → Machine
  | 0 => machine
  | rounds + 1 =>
      if condition machine then machine
      else
        match machine.round? with
        | none => machine
        | some machine => machine.runRounds condition rounds

def patience : Nat := 100000000

def runUntil (machine : Machine) (condition : Machine → Bool) : Machine :=
  machine.runRounds condition patience

def hasEnded (pid : Pid) (machine : Machine) : Bool :=
  (machine.process? pid).all fun process => !process.isAlive

end JobControl.Machine
