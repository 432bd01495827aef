import JobControl.Registry
import JobControl.Text.Raw
/-!
# Calls to the system

Everything that a session does outside itself is a call: opening a file, making a pipe, starting,
waiting for or signalling a process, writing a line.  A call has a type of answers, and nothing is
assumed here about which answer is given.  A wait may be interrupted, or tell of a child that only
stopped or went on; it is a call of its own to wait again.
-/

namespace JobControl

/-- An open file of the session. -/
structure Handle where
  number : Nat
  deriving DecidableEq, Repr

/-- What becomes of a handle in a child of the session that runs its program. -/
inductive OnExec where
  | closed
  | passedOn
  deriving DecidableEq, Repr

/-- Who may read and write a file that is created. -/
inductive Permissions where
  | ownerOnly
  | shared
  deriving DecidableEq, Repr

/-- A program to start.  A stream without a handle is the session's own. -/
structure Launch where
  program : String
  arguments : List String
  input : Option Handle := none
  output : Option Handle := none
  errors : Option Handle := none
  deriving DecidableEq, Repr

/-- How a process came to its end. -/
inductive Ending where
  | exited (code : Nat)
  | killed (signal : Nat)
  deriving DecidableEq, Repr

/-- The status of an ended process: its exit code, or 128 and the signal that killed it. -/
def Ending.status : Ending → Int
  | .exited code => code
  | .killed signal => 128 + signal

/-- What a wait tells of a child. -/
inductive ChildChange where
  /-- The child ended; the wait has collected it. -/
  | ended (ending : Ending)
  | stopped
  | continued
  deriving DecidableEq, Repr

/-- What is known of one child after a look at all of them. -/
inductive ChildNotice where
  | ended (pid : Pid) (ending : Ending)
  | changed (pid : Pid)
  | failed (reason : Errno)
  deriving DecidableEq, Repr

/-- The signals that the session catches; each of them sets a flag and does nothing else. -/
inductive CaughtSignal where
  | childEnded
  | shutdown
  deriving DecidableEq, Repr

/-- What a session repeats until nothing more comes. -/
inductive Repeated where
  | waits
  | looksAtChildren
  | inputLines
  deriving DecidableEq, Repr

/-- What a session asks of the system. -/
inductive Call where
  | catchSignal (signal : CaughtSignal)
  /-- Clear the flag of a caught signal and tell whether it was set. -/
  | takeFlag (signal : CaughtSignal)
  | openInput (path : RawText)
  /-- Open a file for appending, creating it if there is none. -/
  | openOutput (path : RawText) (permissions : Permissions)
  /-- Make a pipe: the end to read from and the end to write to, for both of which it is said what
  becomes of them in children. -/
  | makePipe (onExec : OnExec)
  | close (handle : Handle)
  /-- Start a process.  A child that cannot run its program is gone when the refusal is given. -/
  | launch (launch : Launch)
  /-- Wait until a child has ended, and collect it. -/
  | wait (pid : Pid)
  /-- Collect one child that has ended, without waiting; `none` when there are children and none of
  them has ended. -/
  | lookAtChildren
  | sendShutdown (pid : Pid)
  /-- How often something can be repeated, at most, before nothing more comes. -/
  | bound (what : Repeated)
  | environment (name : String)
  | accountHome
  | currentDirectory
  | changeDirectory (path : RawText)
  | now
  | write (outlet : Outlet) (text : String)
  /-- The next line of the standard input with its ending, `none` at its end. -/
  | readLine
  deriving DecidableEq, Repr

abbrev Call.Answer : Call → Type
  | .catchSignal _ => Except Errno Unit
  | .takeFlag _ => Bool
  | .openInput _ => Except AccessFault Handle
  | .openOutput _ _ => Except AccessFault Handle
  | .makePipe _ => Except Errno (Handle × Handle)
  | .close _ => Unit
  | .launch _ => Except AccessFault Pid
  | .wait _ => Except Errno ChildChange
  | .lookAtChildren => Except Errno (Option (Pid × ChildChange))
  | .sendShutdown _ => Except Errno Unit
  | .bound _ => Nat
  | .environment _ => Option RawText
  | .accountHome => Option RawText
  | .currentDirectory => Except Errno RawText
  | .changeDirectory _ => Except AccessFault Unit
  | .now => Moment
  | .write _ _ => Except Errno Unit
  | .readLine => Except AccessFault (Option ByteArray)

end JobControl
