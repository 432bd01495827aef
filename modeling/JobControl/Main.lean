import JobControl.CommandLine
import JobControl.Machine.Stage
/-!
# The program

Runs the command line on a fresh machine whose standard input is the one of the program, and shows
what was written on it.
-/

namespace JobControl

partial def readAll (stream : IO.FS.Stream) (taken : ByteArray) : IO ByteArray := do
  let piece ← stream.read 65536
  if piece.isEmpty then return taken else readAll stream (taken ++ piece)

def showWritten (machine : Machine) (descriptor : Nat) (stream : IO.FS.Stream) : IO Machine := do
  let (bytes, machine) := machine.takeWritten descriptor
  stream.write bytes
  stream.flush
  return machine

end JobControl

/-- Runs the command line with the arguments of the program. -/
def main (arguments : List String) : IO UInt32 := do
  let input ← JobControl.readAll (← IO.getStdin) ByteArray.empty
  let terminal := (← IO.getEnv "TERM").getD ""
  let machine := JobControl.Machine.ofSettings { input := input, terminal := terminal }
  let (status, machine) := machine.perform (JobControl.CommandLine.run arguments)
  let machine ← JobControl.showWritten machine 1 (← IO.getStdout)
  let _ ← JobControl.showWritten machine 2 (← IO.getStderr)
  return status.toUInt32
