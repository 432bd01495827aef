import JobControl.Machine.Schedule
import JobControl.System.Program
/-!
# How a machine answers

The machine answers every call of a session.  A wait lets the processes act until the child has
ended; all other calls are answered at once.  A session has a descriptor for each file that it has
opened, and the number of its descriptors may be limited.
-/

namespace JobControl.Machine

/-! ## Descriptors of the session -/

def allows (machine : Machine) (count : Nat) : Bool :=
  machine.spare.all fun spare => count ≤ spare

def giveHandle (machine : Machine) (file : OpenFileId) (onExec : OnExec) : Handle × Machine :=
  let descriptor := machine.session.freeDescriptor
  (⟨descriptor⟩,
    { machine with
      session := (machine.session.opening descriptor file).marking descriptor onExec
      spare := machine.spare.map fun spare => spare - 1 })

def closeHandle (machine : Machine) (handle : Handle) : Machine :=
  { machine with
    session := machine.session.closing handle.number
    spare := machine.spare.map fun spare => spare + 1 }

def holdsNul (raw : RawText) : Bool :=
  raw.bytes.contains 0

/-- Opens a file for the session, to be closed in its children.  Names that cannot be names are
refused first, then the limit on descriptors counts, and then the file is looked for. -/
def openForSession (machine : Machine) (path : RawText)
    (opening : Machine → Except Errno (OpenFileId × Machine)) :
    Except AccessFault Handle × Machine :=
  if holdsNul path then (.error .nulInName, machine)
  else if FileTree.longestPath < path.size then (.error (.refused .nameTooLong), machine)
  else if path.isEmpty then (.error (.refused .noEntry), machine)
  else if !machine.allows 1 then (.error (.refused .tooManyOpen), machine)
  else
    match opening machine with
    | .error reason => (.error (.refused reason), machine)
    | .ok (file, machine) =>
        let (handle, machine) := machine.giveHandle file .closed
        (.ok handle, machine)

def permissionBits : Permissions → Nat
  | .ownerOnly => 0o600
  | .shared => 0o644

def pipeForSession (machine : Machine) (onExec : OnExec) :
    Except Errno (Handle × Handle) × Machine :=
  if !machine.allows 2 then (.error .tooManyOpen, machine)
  else
    let (readEnd, writeEnd, machine) := machine.addPipe
    let (readHandle, machine) := machine.giveHandle readEnd onExec
    let (writeHandle, machine) := machine.giveHandle writeEnd onExec
    (.ok (readHandle, writeHandle), machine)

/-! ## Children of the session -/

/-- The stream of a child: the file given, or the session's own. -/
def streamOf (machine : Machine) (descriptor : Nat) (handle : Option Handle) :
    Option (Nat × OpenFileId) :=
  (machine.session.openFile? ((handle.map Handle.number).getD descriptor)).map fun file =>
    (descriptor, file)

/-- A child has its three streams and the other descriptors that are passed on. -/
def surroundingsFor (machine : Machine) (launch : Launch) : Surroundings :=
  { descriptors :=
      [machine.streamOf 0 launch.input, machine.streamOf 1 launch.output,
        machine.streamOf 2 launch.errors].filterMap id ++
        machine.session.passedOn.filter fun entry => 2 < entry.1
    directory := machine.session.directory
    environment := machine.session.environment }

/-- Starts a child of the session.  A child that cannot run its program has ended at once. -/
def launchChild (machine : Machine) (launch : Launch) : Except AccessFault Pid × Machine :=
  let arguments := launch.arguments.map RawText.ofText
  if (RawText.ofText launch.program :: arguments).any holdsNul then (.error .nulInName, machine)
  else
    let surroundings := machine.surroundingsFor launch
    match findProgram machine surroundings launch.program arguments with
    | .error reason => (.error (.refused reason), machine.raiseFlag .childEnded)
    | .ok found =>
        let routine := routineOf machine surroundings ⟨machine.nextPid⟩ found
        let (pid, machine) := machine.addProcess machine.sessionPid surroundings routine
        (.ok pid, machine)

def child? (machine : Machine) (pid : Pid) : Option Process :=
  (machine.process? pid).filter fun process => process.parent = machine.sessionPid

def lastNamedSignal : Nat := 31

/-- The ending as it can be told: signals without a name are not. -/
def tellable : Ending → Except Errno Ending
  | .killed signal =>
      if lastNamedSignal < signal then .error .invalidArgument else .ok (.killed signal)
  | .exited code => .ok (.exited code)

def waitForChild (machine : Machine) (pid : Pid) : Except Errno Ending × Machine :=
  match machine.child? pid with
  | none => (.error .noChild, machine)
  | some _ =>
      let machine := machine.runUntil (hasEnded pid)
      match (machine.child? pid).bind Process.ending with
      | some ending => (tellable ending, machine.forget pid)
      | none => (.error .interrupted, machine)

def collectChild (machine : Machine) : Except Errno (Option (Pid × ChildChange)) × Machine :=
  match machine.childrenOf machine.sessionPid with
  | [] => (.error .noChild, machine)
  | children =>
      match children.find? fun child => !child.isAlive with
      | none => (.ok none, machine)
      | some child =>
          let change := match child.ending.map tellable with
            | some (.ok ending) => .ok (some (child.pid, .ended ending))
            | some (.error reason) => .error reason
            | none => .ok none
          (change, machine.forget child.pid)

/-! ## The standard input -/

def inputPiece : Nat := 8192

/-- Reads on until a line is complete or the input has ended, at most as often as said. -/
def fillLine (machine : Machine) : Nat → Machine
  | 0 => machine
  | pieces + 1 =>
      if machine.inputBuffer.toList.contains lineFeed then machine
      else
        match machine.receive machine.session 0 inputPiece with
        | (.piece piece, machine) =>
            fillLine { machine with inputBuffer := machine.inputBuffer ++ piece } pieces
        | (_, machine) => machine

/-- The number of bytes of the input that have not been taken as lines. -/
def inputLeft (machine : Machine) : Nat :=
  let unread := match (machine.session.openFile? 0).bind fun file => machine.files[file]? with
    | some ⟨.node node, offset, _, _⟩ =>
        ((machine.tree.content? node).map ByteArray.size).getD 0 - offset
    | _ => 0
  machine.inputBuffer.size + unread

def takeLine (machine : Machine) : Option ByteArray × Machine :=
  let machine := machine.fillLine (machine.inputLeft + 1)
  match cutAfterLineFeeds machine.inputBuffer.toList with
  | [] => (none, machine)
  | line :: _ =>
      (some (bytesOf line),
        { machine with
          inputBuffer :=
            machine.inputBuffer.extract line.length machine.inputBuffer.size })

/-! ## Answers -/

/-- The time at which the machine was started, in seconds since the beginning of 1970. -/
def startTime : Nat := 1762637280

def sendForSession (machine : Machine) (descriptor : Nat) (bytes : ByteArray) :
    Except Errno Unit × Machine :=
  match machine.send machine.session descriptor bytes with
  | (.accepted _, machine) => (.ok (), machine)
  | (.notYet, machine) => (.error .tryAgain, machine)
  | (.refused reason, machine) => (.error reason, machine)

def sendUnsent (machine : Machine) : Except Errno Unit × Machine :=
  if machine.unsent.isEmpty then (.ok (), machine)
  else
    match machine.sendForSession 1 machine.unsent with
    | (.error reason, machine) => (.error reason, machine)
    | (.ok (), machine) => (.ok (), { machine with unsent := ByteArray.empty })

/-- Writes to the output of the session.  What was refused is kept and goes out before the next
text, which is lost if the earlier one is refused again. -/
def writeToOutput (machine : Machine) (bytes : ByteArray) : Except Errno Unit × Machine :=
  match machine.sendUnsent with
  | (.error reason, machine) => (.error reason, machine)
  | (.ok (), machine) =>
      match machine.sendForSession 1 bytes with
      | (.error reason, machine) => (.error reason, { machine with unsent := bytes })
      | (.ok (), machine) => (.ok (), machine)

def writeForSession (machine : Machine) (outlet : Outlet) (text : String) :
    Except Errno Unit × Machine :=
  match outlet with
  | .output => machine.writeToOutput text.toUTF8
  | .errors => machine.sendForSession 2 text.toUTF8
  | .provided => (.ok (), { machine with provided := machine.provided ++ text })

def answer (call : Call) (machine : Machine) : call.Answer × Machine :=
  match call with
  | .catchSignal _ => (.ok (), machine)
  | .takeFlag signal =>
      (machine.flags.contains signal,
        { machine with flags := machine.flags.filter (· ≠ signal) })
  | .openInput path =>
      machine.openForSession path fun machine =>
        machine.openForReading machine.session.directory path
  | .openOutput path permissions =>
      machine.openForSession path fun machine =>
        machine.openForWriting machine.session.directory path true (permissionBits permissions)
  | .makePipe onExec => machine.pipeForSession onExec
  | .close handle => ((), machine.closeHandle handle)
  | .launch launch => machine.launchChild launch
  | .wait pid =>
      let (outcome, machine) := machine.waitForChild pid
      (outcome.map .ended, machine)
  | .lookAtChildren => machine.collectChild
  | .sendShutdown pid =>
      match machine.signal? pid shutdownSignal with
      | some machine => (.ok (), machine)
      | none => (.error .noProcess, machine)
  | .bound .waits => ((0 : Nat), machine)
  | .bound .looksAtChildren => ((machine.childrenOf machine.sessionPid).length, machine)
  | .bound .inputLines => (machine.inputLeft, machine)
  | .environment name => ((machine.session.value? name).map RawText.ofText, machine)
  | .accountHome => (some (.ofText "/root"), machine)
  | .currentDirectory =>
      (match machine.tree.path? machine.session.directory with
        | some path => .ok path
        | none => .error .noEntry,
        machine)
  | .changeDirectory path =>
      if holdsNul path then (.error .nulInName, machine)
      else
        match machine.tree.findDirectory machine.session.directory path with
        | .ok directory =>
            (.ok (), { machine with session := { machine.session with directory := directory } })
        | .error reason => (.error (.refused reason), machine)
  | .now => (⟨startTime + machine.clock / 1000000000⟩, machine)
  | .write outlet text => machine.writeForSession outlet text
  | .readLine =>
      let (line, machine) := machine.takeLine
      (.ok line, machine)

def perform {α : Type} (machine : Machine) (program : Program α) : α × Machine :=
  program.run answer machine

end JobControl.Machine
