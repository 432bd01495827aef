import JobControl.Machine.Process
/-!
# Reading and writing open files

A file is read and written at the place of the open file, or written at its end; a file that is
open for direct writing takes whole sectors only.  A pipe holds a bounded number of bytes.  Reading
from an empty pipe has to wait as long as someone holds an end to write to, and finds its end
otherwise; writing to a pipe that nobody can read from is refused, and writing to a full one has to
wait.
-/

namespace JobControl.Machine

def pipeCapacity : Nat := 65536

/-- What came of reading. -/
inductive Received where
  | piece (bytes : ByteArray)
  | atEnd
  | notYet
  | refused (reason : Errno)

/-- What came of writing. -/
inductive Sent where
  | accepted (count : Nat)
  | notYet
  | refused (reason : Errno)
  deriving DecidableEq, Repr

/-! ## Who holds a pipe -/

def holdsEnd (machine : Machine) (target : OpenTarget) (surroundings : Surroundings) : Bool :=
  surroundings.descriptors.any fun entry =>
    (machine.files[entry.2]?).any fun file => file.target = target

def isHeld (machine : Machine) (target : OpenTarget) : Bool :=
  machine.holdsEnd target machine.session ||
    machine.processes.any fun process => machine.holdsEnd target process.surroundings

/-! ## Opening -/

def addFile (machine : Machine) (file : OpenFile) : OpenFileId × Machine :=
  (machine.files.size, { machine with files := machine.files.push file })

/-- Makes a pipe: the open files of its two ends. -/
def addPipe (machine : Machine) : OpenFileId × OpenFileId × Machine :=
  let pipe := machine.pipes.size
  let machine := { machine with pipes := machine.pipes.push ByteArray.empty }
  let (readEnd, machine) := machine.addFile { target := .readEnd pipe }
  let (writeEnd, machine) := machine.addFile { target := .writeEnd pipe }
  (readEnd, writeEnd, machine)

def openForReading (machine : Machine) (directory : NodeId) (path : RawText) :
    Except Errno (OpenFileId × Machine) := do
  let node ← machine.tree.find directory path
  return machine.addFile { target := .node node }

def openForWriting (machine : Machine) (directory : NodeId) (path : RawText) (appends : Bool)
    (permissions : Nat) : Except Errno (OpenFileId × Machine) := do
  let (node, tree) ← machine.tree.findOrCreate directory path permissions
  let tree :=
    if appends then tree
    else
      match tree.content? node with
      | some _ => tree.setBody node (.file ByteArray.empty)
      | none => tree
  return { machine with tree := tree }.addFile { target := .node node, appends := appends }

/-! ## Reading -/

def moveTo (machine : Machine) (file : OpenFileId) (offset : Nat) : Machine :=
  { machine with
    files := machine.files.modify file fun old => { old with offset := offset } }

/-- Reads from an open file, at most as many bytes as said. -/
def readFrom (machine : Machine) (file : OpenFileId) (limit : Nat) : Received × Machine :=
  match machine.files[file]? with
  | none => (.refused .badDescriptor, machine)
  | some ⟨.writeEnd _, _, _, _⟩ => (.refused .badDescriptor, machine)
  | some ⟨.readEnd pipe, _, _, _⟩ =>
      let held := machine.pipes.getD pipe ByteArray.empty
      if held.isEmpty then
        (if machine.isHeld (.writeEnd pipe) then .notYet else .atEnd, machine)
      else
        (.piece (held.extract 0 limit),
          { machine with pipes := machine.pipes.modify pipe fun old => old.extract limit old.size })
  | some ⟨.node node, offset, _, _⟩ =>
      match machine.tree.body? node with
      | some (.file content) =>
          let piece := content.extract offset (offset + limit)
          if piece.isEmpty then (.atEnd, machine)
          else (.piece piece, machine.moveTo file (offset + piece.size))
      | some (.directory _ _) => (.refused .isDirectory, machine)
      | _ => (.atEnd, machine)

def setDirect (machine : Machine) (surroundings : Surroundings) (descriptor : Nat)
    (direct : Bool) : Machine :=
  match surroundings.openFile? descriptor with
  | some file =>
      { machine with
        files := machine.files.modify file fun old => { old with direct := direct } }
  | none => machine

/-! ## Writing -/

def overwrite (content bytes : ByteArray) (offset : Nat) : ByteArray :=
  let gap := ByteArray.mk (Array.replicate (offset - content.size) 0)
  content.extract 0 offset ++ gap ++ bytes ++ content.extract (offset + bytes.size) content.size

def sectorSize : Nat := 512

def isWholeSectors (size : Nat) : Bool :=
  size % sectorSize = 0

def writeTo (machine : Machine) (file : OpenFileId) (bytes : ByteArray) : Sent × Machine :=
  match machine.files[file]? with
  | none => (.refused .badDescriptor, machine)
  | some ⟨.readEnd _, _, _, _⟩ => (.refused .badDescriptor, machine)
  | some ⟨.writeEnd pipe, _, _, _⟩ =>
      let held := machine.pipes.getD pipe ByteArray.empty
      let taken := bytes.extract 0 (pipeCapacity - held.size)
      if !machine.isHeld (.readEnd pipe) then (.refused .brokenPipe, machine)
      else if taken.isEmpty && !bytes.isEmpty then (.notYet, machine)
      else
        (.accepted taken.size,
          { machine with pipes := machine.pipes.modify pipe fun old => old ++ taken })
  | some ⟨.node node, offset, appends, direct⟩ =>
      match machine.tree.body? node with
      | some (.file content) =>
          let offset := if appends then content.size else offset
          let tree := machine.tree.setBody node (.file (overwrite content bytes offset))
          if direct && !(isWholeSectors offset && isWholeSectors bytes.size) then
            (.refused .invalidArgument, machine)
          else
            (.accepted bytes.size,
              { machine with tree := tree }.moveTo file (offset + bytes.size))
      | some (.directory _ _) => (.refused .badDescriptor, machine)
      | _ => (.accepted bytes.size, machine)

def receive (machine : Machine) (surroundings : Surroundings) (descriptor limit : Nat) :
    Received × Machine :=
  match surroundings.openFile? descriptor with
  | some file => machine.readFrom file limit
  | none => (.refused .badDescriptor, machine)

def send (machine : Machine) (surroundings : Surroundings) (descriptor : Nat)
    (bytes : ByteArray) : Sent × Machine :=
  match surroundings.openFile? descriptor with
  | some file => machine.writeTo file bytes
  | none => (.refused .badDescriptor, machine)

end JobControl.Machine
