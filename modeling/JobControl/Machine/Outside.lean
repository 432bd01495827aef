import JobControl.Machine.Stage
/-!
# What is done to a machine from outside

Someone who watches a session can wait for its children without collecting them, collect them
behind its back, signal them, and look after the files.
-/

namespace JobControl.Machine

/-- Outside, raw text is seen as it is shown. -/
instance : CoeOut RawText String where
  coe := RawText.shown

/-- Waits until a child of the session has ended, without collecting it; whether there is such a
child. -/
def awaitChild (machine : Machine) (pid : Pid) : Bool × Machine :=
  match machine.child? pid with
  | none => (false, machine)
  | some _ => (true, machine.runUntil (hasEnded pid))

def stealChild (machine : Machine) (pid : Pid) : Machine :=
  (machine.waitForChild pid).2

/-- Signals a child of the session; whether there is such a child and such a signal. -/
def signalChild (machine : Machine) (pid : Pid) (signal : Nat) : Bool × Machine :=
  match machine.child? pid with
  | none => (false, machine)
  | some _ =>
      if 64 < signal then (false, machine)
      else
        match machine.signal? pid signal with
        | some machine => (true, machine)
        | none => (false, machine)

def signalSession (machine : Machine) : Machine :=
  (machine.signal? machine.sessionPid shutdownSignal).getD machine

def contentOf? (machine : Machine) (path : String) : Option ByteArray := do
  let work ← (machine.tree.find FileTree.root workDirectory).toOption
  let node ← (machine.tree.find work path).toOption
  machine.tree.content? node

def awaitContent (machine : Machine) (path : String) : Machine :=
  machine.runUntil fun machine => (machine.contentOf? path).any fun content => !content.isEmpty

def putInWork (machine : Machine) (path : String) (file : StagedFile) : Machine :=
  match machine.tree.find FileTree.root workDirectory with
  | .ok work => { machine with tree := putFile machine.tree work path file }
  | .error _ => machine

/-- Removes a file of the working directory, or a directory with all that is in it; whether there
was one. -/
def removeFromWork (machine : Machine) (path : String) : Bool × Machine :=
  let place := do
    let work ← machine.tree.find FileTree.root workDirectory
    machine.tree.locate work path false
  match place with
  | .error _ => (false, machine)
  | .ok place =>
      match place.node with
      | none => (false, machine)
      | some _ => (true, { machine with tree := machine.tree.remove place })

/-- Reads an open file of the session to its end, at most as many pieces as said. -/
def readPieces (machine : Machine) (handle : Handle) (taken : ByteArray) :
    Nat → Except Errno ByteArray × Machine
  | 0 => (.ok taken, machine)
  | pieces + 1 =>
      match machine.receive machine.session handle.number pieceSize with
      | (.piece piece, machine) => readPieces machine handle (taken ++ piece) pieces
      | (.refused reason, machine) => (.error reason, machine)
      | (_, machine) => (.ok taken, machine)

/-- Reads an open file of the session to its end, as text. -/
def readText (machine : Machine) (handle : Handle) : Except AccessFault String × Machine :=
  match machine.readPieces handle ByteArray.empty pieceSize with
  | (.ok bytes, machine) =>
      match String.fromUTF8? bytes with
      | some text => (.ok text, machine)
      | none => (.error .notText, machine)
  | (.error reason, machine) => (.error (.refused reason), machine)

def writeText (machine : Machine) (handle : Handle) (text : String) : Machine :=
  (machine.send machine.session handle.number text.toUTF8).2

end JobControl.Machine
