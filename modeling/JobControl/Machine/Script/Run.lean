import JobControl.Machine.Execute
import JobControl.Machine.Script.Expand
import JobControl.Machine.Signal
/-!
# Running a script

An interpreter takes what remains to be done from a stack of frames, one frame at a time.  It runs
its builtins itself, and other programs, like the parts of a pipeline, in processes of their own,
for which it waits.  A step tells whether it changed anything; a process whose step changes nothing
is waiting for others.
-/

namespace JobControl.Machine.Script

/-- An interpreter at work: the machine without it, its process, and its own state. -/
structure Running where
  machine : Machine
  process : Process
  interpreter : Interpreter

namespace Running

/-! ## Small steps -/

def push (running : Running) (frames : List Frame) : Running :=
  { running with
    interpreter := { running.interpreter with frames := frames ++ running.interpreter.frames } }

def withStatus (running : Running) (status : Nat) : Running :=
  { running with interpreter := { running.interpreter with status := status } }

def withSurroundings (running : Running) (surroundings : Surroundings) : Running :=
  { running with process := { running.process with surroundings := surroundings } }

def surroundings (running : Running) : Surroundings :=
  running.process.surroundings

def parameters (running : Running) : Parameters :=
  { interpreter := running.interpreter, environment := running.surroundings.environment }

def store (running : Running) : Machine :=
  running.machine.store { running.process with routine := .script running.interpreter }

def complain (running : Running) (line : Nat) (words : String) (status : Nat) : Running :=
  let text := s!"{running.interpreter.name}: {line}: {words}\n"
  (running.withStatus status).push [.write 2 text.toUTF8]

def endingAfterNext (running : Running) : Running :=
  let frames := running.interpreter.frames.take 1 ++ [Frame.finish]
  { running with interpreter := { running.interpreter with frames := frames } }

/-- Gives a variable a value, in the environment if it is there. -/
def assign (running : Running) (name value : String) : Running :=
  if (running.surroundings.value? name).isSome then
    running.withSurroundings (running.surroundings.setting name value)
  else
    let others := running.interpreter.bindings.filter fun entry => entry.1 ≠ name
    { running with
      interpreter := { running.interpreter with bindings := (name, value) :: others } }

def assignAll (running : Running) : List (String × Word) → Running
  | [] => running
  | (name, word) :: rest =>
      assignAll (running.assign name (expandText running.parameters word)) rest

/-! ## Redirections -/

def openingWords (kind : RedirectionKind) (path : String) (reason : Errno) : String :=
  let missing := reason = .noEntry || reason = .notDirectory
  if kind = .read then
    let words := if missing then "No such file" else reason.words
    s!"cannot open {path}: {words}"
  else
    let words := if missing then "Directory nonexistent" else reason.words
    s!"cannot create {path}: {words}"

/-- Opens the file of a redirection, or finds the one that it copies. -/
def openTarget (running : Running) (kind : RedirectionKind) (target : String) :
    Except String (OpenFileId × Machine) :=
  let directory := running.surroundings.directory
  let opened := match kind with
    | .read => running.machine.openForReading directory target
    | .write => running.machine.openForWriting directory target false 0o644
    | .append => running.machine.openForWriting directory target true 0o644
    | .duplicate =>
        match target.toNat?.bind running.surroundings.openFile? with
        | some file => .ok (file, running.machine)
        | none => .error .badDescriptor
  match opened with
  | .ok result => .ok result
  | .error reason =>
      .error (if kind = .duplicate then s!"{target}: {reason.words}"
        else openingWords kind target reason)

/-- Applies redirections; the words of the first that fails. -/
def redirect (running : Running) : List FileRedirection → Except String Running
  | [] => .ok running
  | redirection :: rest => do
      let target := expandText running.parameters redirection.target
      if redirection.kind = .duplicate && target = "-" then
        redirect (running.withSurroundings (running.surroundings.closing redirection.descriptor))
          rest
      else
        let (file, machine) ← running.openTarget redirection.kind target
        redirect
          ({ running with machine := machine }.withSurroundings
            (running.surroundings.opening redirection.descriptor file)) rest

/-! ## Processes of the script -/

def fork (running : Running) (surroundings : Surroundings) (routine : Routine) : Pid × Running :=
  let (pid, machine) := running.machine.addProcess running.process.pid surroundings routine
  (pid, { running with machine := machine })

def forkCommand (running : Running) (surroundings : Surroundings) (command : Command) :
    Pid × Running :=
  running.fork surroundings
    (.script { running.interpreter with frames := [.run command], traps := [] })

/-- Starts the commands of a pipeline, the first of which reads from `input`. -/
def forkPipeline (running : Running) (input : Option OpenFileId) :
    List Command → List Pid × Running
  | [] => ([], running)
  | command :: rest =>
      let reading := match input with
        | some file => running.surroundings.opening 0 file
        | none => running.surroundings
      if rest.isEmpty then
        let (pid, running) := running.forkCommand reading command
        ([pid], running)
      else
        let (readEnd, writeEnd, machine) := running.machine.addPipe
        let running := { running with machine := machine }
        let (pid, running) := running.forkCommand (reading.opening 1 writeEnd) command
        let (pids, running) := running.forkPipeline (some readEnd) rest
        (pid :: pids, running)

def launchStatus (reason : Errno) : Nat :=
  if [Errno.noEntry, .notDirectory, .tooManyLinks, .nameTooLong].contains reason then 127 else 126

def launchWords (program : String) (reason : Errno) : String :=
  let words := if reason = .noEntry || reason = .notDirectory then "not found" else reason.words
  s!"{program}: {words}"

/-- What a process does that runs a program: a file that is no program is run as a script. -/
def launchRoutine (running : Running) (surroundings : Surroundings) (pid : Pid)
    (program : String) (arguments : List String) : Except Errno Routine :=
  match findProgram running.machine surroundings program (arguments.map RawText.ofText) with
  | .ok found => .ok (routineOf running.machine surroundings pid found)
  | .error .notExecutable =>
      .ok (Utility.startScriptFile running.machine surroundings pid program arguments)
  | .error reason => .error reason

def launch (running : Running) (line : Nat) (surroundings : Surroundings) (program : String)
    (arguments : List String) : Running :=
  let pid : Pid := ⟨running.machine.nextPid⟩
  match running.launchRoutine surroundings pid program arguments with
  | .ok routine =>
      let (child, running) := running.fork surroundings routine
      running.push [.await child]
  | .error reason => running.complain line (launchWords program reason) (launchStatus reason)

def become (running : Running) (line : Nat) (program : String) (arguments : List String) :
    Machine × Bool :=
  match running.launchRoutine running.surroundings running.process.pid program arguments with
  | .ok routine =>
      (running.machine.store { running.process with routine := routine, caught := [] }, true)
  | .error reason =>
      let words := "exec: " ++ launchWords program reason
      ((running.complain line words (launchStatus reason)).endingAfterNext.store, true)

/-! ## Builtins -/

/-- Whether an expression of `test` holds; `none` if it is not one. -/
def holds? (running : Running) : List String → Option Bool
  | [] => some false
  | [text] => some (!text.isEmpty)
  | "!" :: rest => (holds? running rest).map (!·)
  | ["-n", text] => some (!text.isEmpty)
  | ["-z", text] => some text.isEmpty
  | [operator, path] =>
      let node := running.machine.tree.find running.surroundings.directory path
      let body := node.toOption.bind running.machine.tree.body?
      match operator, body with
      | "-e", body => some body.isSome
      | "-f", some (.file _) => some true
      | "-d", some (.directory _ _) => some true
      | "-s", some (.file content) => some (!content.isEmpty)
      | "-r", body => some body.isSome
      | "-w", body => some body.isSome
      | "-x", body => some (body.isSome && (node.toOption.bind fun found =>
          (running.machine.tree.nodes[found]?).map fun node => mayRun node.permissions).getD false)
      | operator, _ => if ["-f", "-d", "-s"].contains operator then some false else none
  | [first, operator, second] =>
      let a := Format.wholeNumber first
      let b := Format.wholeNumber second
      match operator with
      | "=" => some (first = second)
      | "!=" => some (first ≠ second)
      | "-eq" => some (a = b)
      | "-ne" => some (a ≠ b)
      | "-lt" => some (a < b)
      | "-le" => some (a ≤ b)
      | "-gt" => some (a > b)
      | "-ge" => some (a ≥ b)
      | _ => none
  | _ => none

/-- Runs `test`: the expression decides the status. -/
def test (running : Running) (line : Nat) (words : List String) : Running :=
  match running.holds? words with
  | some true => running.withStatus 0
  | some false => running.withStatus 1
  | none => running.complain line "test: unexpected operator" 2

/-- Runs `kill`: sends a signal to processes, of which this one may be one. -/
def kill (running : Running) (line : Nat) (signal : Nat) (targets : List String) :
    Machine × Bool :=
  let send (state : Machine × Bool) (target : String) : Machine × Bool :=
    match target.toInt?.bind fun number => state.1.signal? ⟨number⟩ signal with
    | some machine => (machine, state.2)
    | none => (state.1, false)
  let (machine, allFound) := targets.foldl send ((running.withStatus 0).store, true)
  if allFound then (machine, true)
  else
    ({ running with machine := machine }.complain line "kill: No such process\n" 1 |>.store, true)

/-- The signal and the targets of `kill`. -/
def killArguments : List String → Option (Nat × List String)
  | "-s" :: name :: targets => (signalOfText? name).map fun signal => (signal, targets)
  | "--" :: targets => some (15, targets)
  | first :: targets =>
      if first.startsWith "-" then
        (signalOfText? (first.drop 1).toString).map fun signal => (signal, targets)
      else some (15, first :: targets)
  | [] => none

/-- Sets what is done on some signals: nothing, the usual, or a command. -/
def trap (running : Running) (action : String) (signals : List Nat) : Running :=
  let traps := running.interpreter.traps.filter fun entry => !signals.contains entry.1
  let ignored := running.surroundings.ignored.filter fun signal => !signals.contains signal
  let running :=
    running.withSurroundings
      { running.surroundings with
        ignored := if action.isEmpty then signals ++ ignored else ignored }
  let added :=
    if action.isEmpty || action = "-" then [] else signals.map fun signal => (signal, action)
  { running with
    interpreter := { running.interpreter with traps := added ++ traps, status := 0 } }

def exportAll (running : Running) : List String → Running
  | [] => running
  | word :: rest =>
      let name := String.ofList (word.toList.takeWhile (· ≠ '='))
      let value :=
        if word.contains '=' then (word.drop (name.length + 1)).toString
        else running.parameters.value name
      exportAll (running.withSurroundings (running.surroundings.setting name value)) rest

/-- Runs `cd`: without an argument the home directory is entered. -/
def changeDirectory (running : Running) (line : Nat) (words : List String) : Running :=
  let target := words.headD ((running.surroundings.value? "HOME").getD "")
  match running.machine.tree.findDirectory running.surroundings.directory target with
  | .ok directory =>
      (running.withSurroundings { running.surroundings with directory := directory }).withStatus 0
  | .error _ => running.complain line s!"cd: can't cd to {target}" 2

/-- Runs `echo`: escapes are always replaced. -/
def echo (running : Running) (words : List String) : Running :=
  let (lineFeed, words) := match words with
    | "-n" :: rest => (false, rest)
    | words => (true, words)
  (running.withStatus 0).push [.write 1 (Format.escapedLine lineFeed words).toUTF8]

def goesOnWithLoop : Frame → Bool
  | .decide _ _ _ _ => true
  | .again _ _ _ => true
  | .each _ _ _ => true
  | _ => false

/-- Leaves what remains of the body of a loop, with the descriptors given back on the way.  If
there is no loop nothing is left. -/
def leaveBody (running : Running) (withLoop : Bool) : Running :=
  let frames := running.interpreter.frames
  let inner := frames.takeWhile fun frame => !goesOnWithLoop frame
  let outer := frames.drop inner.length
  if outer.isEmpty then running
  else
    let restores := inner.filter fun frame => frame matches .restore _
    { running with
      interpreter :=
        { running.interpreter with
          frames := restores ++ if withLoop then outer.drop 1 else outer } }

def builtins : List String :=
  [":", "true", "false", "echo", "exit", "kill", "trap", "cd", "pwd", "shift", "wait", "test",
   "[", "export", "set", "read", "umask", "break", "continue"]

def runBuiltin (running : Running) (line : Nat) (name : String) (words : List String) :
    Machine × Bool :=
  let done (running : Running) : Machine × Bool := (running.store, true)
  match name with
  | "false" => done (running.withStatus 1)
  | "echo" => done (running.echo words)
  | "exit" =>
      match words with
      | [] => done (running.push [.finish])
      | word :: _ =>
          match Text.digits? word.toList with
          | some status => done ((running.withStatus (status % 256)).push [.finish])
          | none =>
              done (running.complain line s!"exit: Illegal number: {word}" 2).endingAfterNext
  | "break" => done ((running.withStatus 0).leaveBody true)
  | "continue" => done ((running.withStatus 0).leaveBody false)
  | "umask" =>
      done ((running.withStatus 0).push
        (if words.isEmpty then [.write 1 "0022\n".toUTF8] else []))
  | "kill" =>
      match killArguments words with
      | some (signal, targets) => running.kill line signal targets
      | none => done (running.complain line "kill: Illegal option" 2)
  | "trap" =>
      match words with
      | [] => done (running.withStatus 0)
      | action :: names => done (running.trap action (names.filterMap signalOfText?))
  | "cd" => done (running.changeDirectory line words)
  | "pwd" =>
      let path := (running.machine.tree.path? running.surroundings.directory).getD ""
      done ((running.withStatus 0).push [.write 1 (bytesOf (path.bytes ++ [lineFeed]))])
  | "shift" =>
      let count := (words.head?.bind String.toNat?).getD 1
      let left := running.interpreter.parameters.drop count
      done
        { running with
          interpreter := { running.interpreter with parameters := left, status := 0 } }
  | "wait" =>
      match words.head?.bind String.toNat? with
      | some pid => done (running.push [.await ⟨pid⟩])
      | none => done (running.push [.awaitAll])
  | "test" => done (running.test line words)
  | "[" =>
      if words.getLast? = some "]" then done (running.test line words.dropLast)
      else done (running.complain line "[: missing ]" 2)
  | "export" => done ((running.exportAll words).withStatus 0)
  | "set" =>
      let parameters := match words with
        | "--" :: rest => rest
        | words => if words.any fun word => word.startsWith "-" || word.startsWith "+" then
              running.interpreter.parameters
            else words
      done
        { running with
          interpreter := { running.interpreter with parameters := parameters, status := 0 } }
  | "read" =>
      let names := words.filter (· ≠ "-r")
      done (running.push [.readLine names ByteArray.empty])
  | _ => done (running.withStatus 0)

/-! ## Commands -/

def runWords (running : Running) (line : Nat) (assignments : List (String × Word))
    (redirections : List FileRedirection) (program : String) (arguments : List String) :
    Machine × Bool :=
  let before := running.surroundings.descriptors
  match running.redirect redirections with
  | .error words =>
      let running := running.complain line words 2
      ((if program = "exec" then running.endingAfterNext else running).store, true)
  | .ok redirected =>
      let assigned := assignments.map fun (name, word) => (name, expandText running.parameters word)
      let surroundings := assigned.foldl (fun result entry => result.setting entry.1 entry.2)
        redirected.surroundings
      if program = "exec" then
        match arguments with
        | [] => ((redirected.withStatus 0).store, true)
        | program :: arguments =>
            (redirected.withSurroundings surroundings).become line program arguments
      else if builtins.contains program then
        let running := if redirections.isEmpty then redirected
          else redirected.push [.restore before]
        running.runBuiltin line program arguments
      else
        let running := redirected.launch line surroundings program arguments
        ((running.withSurroundings
          { running.surroundings with descriptors := before }).store, true)

def runCommand (running : Running) (command : Command) : Machine × Bool :=
  let push (frames : List Frame) : Machine × Bool := ((running.push frames).store, true)
  match command with
  | .nothing => push []
  | .sequence first second => push [.run first, .run second]
  | .connected onFailure first second => push [.run first, .connect onFailure second]
  | .negated command => push [.run command, .negate]
  | .choice test yes no => push [.run test, .choose yes no]
  | .loop untilSuccess test body => push [.run test, .decide untilSuccess test body 0]
  | .each name words body =>
      let values := match words with
        | some words => expandWords running.parameters words
        | none => running.interpreter.parameters
      (((running.withStatus 0).push [.each name values body]).store, true)
  | .redirected body redirections =>
      let before := running.surroundings.descriptors
      match running.redirect redirections with
      | .ok redirected => ((redirected.push [.run body, .restore before]).store, true)
      | .error words => ((running.complain 1 words 2).store, true)
  | .subshell body =>
      let (child, running) := running.forkCommand running.surroundings body
      ((running.push [.await child]).store, true)
  | .pipeline commands =>
      let (children, running) := running.forkPipeline none commands
      ((running.push (children.map Frame.await)).store, true)
  | .background body =>
      match running.machine.openForReading running.surroundings.directory "/dev/null" with
      | .ok (file, machine) =>
          let surroundings := running.surroundings.opening 0 file
          let (child, running) :=
            { running with machine := machine }.forkCommand surroundings body
          ({ running with
              interpreter :=
                { running.interpreter with lastBackground := some child, status := 0 } }.store,
            true)
      | .error _ => push []
  | .simple line assignments words redirections =>
      match expandWords running.parameters words with
      | [] =>
          let assigned := (running.withStatus 0).assignAll assignments
          match assigned.redirect redirections with
          | .ok opened =>
              ((opened.withSurroundings
                { opened.surroundings with
                  descriptors := assigned.surroundings.descriptors }).store, true)
          | .error words => ((assigned.complain line words 2).store, true)
      | program :: arguments => running.runWords line assignments redirections program arguments

/-! ## Frames -/

/-- What is told of the end of a child: the signal that killed it. -/
def endingNotice : Ending → List Frame
  | .exited _ => []
  | .killed signal =>
      match signalWords.lookup signal with
      | some words => [.write 2 (words ++ "\n").toUTF8]
      | none => []

/-- Collects a child once it has ended, and takes over its status. -/
def collect? (running : Running) (child : Pid) : Option Running :=
  match running.machine.process? child with
  | none => some (running.withStatus 127)
  | some process =>
      if process.parent ≠ running.process.pid then some (running.withStatus 127)
      else
        process.ending.map fun ending =>
          ({ running with machine := running.machine.forget child }.withStatus
            ending.status.toNat).push (endingNotice ending)

def withoutEndGaps (text : List Char) : List Char :=
  (text.reverse.dropWhile Parameters.isGap).reverse

/-- Gives names the words of a line; the last name gets what is left. -/
def assignLine (running : Running) (text : List Char) : List String → Running
  | [] => running
  | [name] => running.assign name (String.ofList (withoutEndGaps text))
  | name :: names =>
      let word := text.takeWhile fun c => !Parameters.isGap c
      let rest := (text.drop word.length).dropWhile Parameters.isGap
      assignLine (running.assign name (String.ofList word)) rest names

def acceptLine (running : Running) (names : List String) (line : ByteArray) (status : Nat) :
    Running :=
  let text := (Text.readLossy line).toList.dropWhile Parameters.isGap
  (running.withStatus status).assignLine text names

/-- Ends the script, after the command that it has for its end. -/
def finish (running : Running) : Machine × Bool :=
  let interpreter := running.interpreter
  match interpreter.traps.lookup 0 with
  | some action =>
      let command := (read action).toOption.getD .nothing
      ({ running with
          interpreter :=
            { interpreter with
              traps := interpreter.traps.filter fun entry => entry.1 ≠ 0
              frames := [.run command, .setStatus interpreter.status, .finish] } }.store, true)
  | none =>
      (running.machine.store { running.process with routine := .exit interpreter.status }, true)

def takeFrame (running : Running) (frame : Frame) : Machine × Bool :=
  let push (frames : List Frame) : Machine × Bool := ((running.push frames).store, true)
  let waiting : Machine × Bool := ((running.push [frame]).store, false)
  let status := running.interpreter.status
  match frame with
  | .run command => running.runCommand command
  | .connect onFailure second =>
      push (if (status ≠ 0) = onFailure then [.run second] else [])
  | .negate => ((running.withStatus (if status = 0 then 1 else 0)).store, true)
  | .choose yes no =>
      (((running.withStatus 0).push [.run (if status = 0 then yes else no)]).store, true)
  | .decide untilSuccess test body last =>
      if (status = 0) ≠ untilSuccess then push [.run body, .again untilSuccess test body]
      else ((running.withStatus last).store, true)
  | .again untilSuccess test body =>
      push [.run test, .decide untilSuccess test body status]
  | .each name values body =>
      match values with
      | [] => push []
      | value :: rest =>
          (((running.assign name value).push [.run body, .each name rest body]).store, true)
  | .restore descriptors =>
      ((running.withSurroundings
        { running.surroundings with descriptors := descriptors }).store, true)
  | .await child =>
      match running.collect? child with
      | some running => (running.store, true)
      | none => waiting
  | .awaitAll =>
      let children := running.machine.childrenOf running.process.pid
      if children.isEmpty then ((running.withStatus 0).store, true)
      else
        match children.find? fun child => !child.isAlive with
        | some child =>
            let machine := running.machine.forget child.pid
            (({ running with machine := machine }.push [.awaitAll]).store, true)
        | none => waiting
  | .write descriptor bytes =>
      match running.machine.send running.surroundings descriptor bytes with
      | (.accepted count, machine) =>
          let left := bytes.extract count bytes.size
          let running := { running with machine := machine }
          ((if left.isEmpty then running else running.push [.write descriptor left]).store, true)
      | (.notYet, _) => waiting
      | (.refused reason, _) =>
          if reason = .brokenPipe && !running.surroundings.ignored.contains pipeSignal then
            (((running.store).signal? running.process.pid pipeSignal).getD running.machine, true)
          else ((running.withStatus 1).store, true)
  | .readLine names taken =>
      match running.machine.receive running.surroundings 0 1 with
      | (.piece piece, machine) =>
          let running := { running with machine := machine }
          if piece.toList = [lineFeed] then ((running.acceptLine names taken 0).store, true)
          else ((running.push [.readLine names (taken ++ piece)]).store, true)
      | (.notYet, _) => waiting
      | _ => ((running.acceptLine names taken 1).store, true)
  | .setStatus status => ((running.withStatus status).store, true)
  | .finish => running.finish

/-- Whether a signal is acted on before a frame is taken up: a child is waited for first. -/
def interrupts : Frame → Bool
  | .await _ => false
  | .write _ _ => false
  | _ => true

def withFrames (running : Running) (frames : List Frame) : Running :=
  { running with interpreter := { running.interpreter with frames := frames } }

/-- Runs the command for a caught signal before a frame is taken up.  Waiting for all children
ends by it. -/
def actOnSignal (running : Running) (signal : Nat) (later : List Nat) (frame : Frame)
    (rest : List Frame) : Running :=
  let action := (running.interpreter.traps.lookup signal).getD ""
  let command := (read action).toOption.getD .nothing
  let after :=
    if frame matches .awaitAll then .setStatus (128 + signal) :: rest
    else .setStatus running.interpreter.status :: frame :: rest
  { running with process := { running.process with caught := later } }.withFrames
    (.run command :: after)

def step (running : Running) : Machine × Bool :=
  match running.interpreter.frames, running.process.caught with
  | [], _ => running.finish
  | frame :: rest, [] => (running.withFrames rest).takeFrame frame
  | frame :: rest, signal :: later =>
      if interrupts frame then ((running.actOnSignal signal later frame rest).store, true)
      else (running.withFrames rest).takeFrame frame

end Running

end JobControl.Machine.Script
