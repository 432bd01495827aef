import JobControl.Machine.Answer
import JobControl.Proofs.World
import JobControl.Reaping
/-!
# The kernel

What a session can rely on when it makes, signals and collects children: the kernel keeps a table
of all attempts to start a child, in the order in which they were made, and of what has become of
each.  A child runs, ends at any moment, and stays in the table as ended until it is collected; the
number of a child may be given to another one only when it has been collected.  A child that cannot
run its program is not there any more when the refusal is given.  That a child has ended is told by
one flag, which may be raised at any moment for other reasons too.

The kernel also knows what each handle of the session stands for and whether it is closed in
children that run a program, and what each child was given: its streams, and all handles of the
session that are not closed.  Calls that concern neither children nor handles are given any answer.
-/

namespace JobControl

/-- An end of a pipe.  Pipes are numbered in the order in which they are made. -/
inductive PipeEnd where
  | reading (pipe : Nat)
  | writing (pipe : Nat)
  deriving DecidableEq, Repr

/-- The number of the pipe. -/
def PipeEnd.pipe : PipeEnd → Nat
  | .reading pipe => pipe
  | .writing pipe => pipe

/-- What a handle of the session stands for. -/
inductive Opened where
  | file
  | pipeEnd (pipeEnd : PipeEnd)
  deriving DecidableEq, Repr

/-- What a child is given for a stream. -/
inductive Stream where
  /-- The session's own stream. -/
  | own
  | given (opened : Opened)
  /-- A handle that stands for nothing. -/
  | missing
  deriving DecidableEq, Repr

/-- A handle that the session has, what it stands for, and what becomes of it in a child. -/
structure Held where
  handle : Handle
  opened : Opened
  onExec : OnExec
  deriving DecidableEq, Repr

/-- What a child gets of some handles besides its streams. -/
def passedOn (handles : List Held) : List Opened :=
  (handles.filter fun held => held.onExec = .passedOn).map Held.opened

/-- What has become of an attempt to start a child. -/
inductive Life where
  | refused (fault : AccessFault)
  | running (pid : Pid)
  /-- The child has ended and has not been collected. -/
  | ended (pid : Pid) (ending : Ending)
  | collected (pid : Pid) (ending : Ending)
  deriving DecidableEq, Repr

namespace Life

/-- The number of the child, if there is or was one. -/
def pid? : Life → Option Pid
  | .refused _ => none
  | .running pid => some pid
  | .ended pid _ => some pid
  | .collected pid _ => some pid

/-- The number of a child that has not been collected. -/
def uncollected? : Life → Option Pid
  | .refused _ => none
  | .running pid => some pid
  | .ended pid _ => some pid
  | .collected _ _ => none

/-- The number of a child that has been collected. -/
def collected? : Life → Option Pid
  | .collected pid _ => some pid
  | _ => none

/-- Whether the child has ended and waits to be collected. -/
def isWaiting : Life → Bool
  | .ended _ _ => true
  | _ => false

/-- Whether the child runs. -/
def isRunning : Life → Bool
  | .running _ => true
  | _ => false

end Life

/-- An attempt to start a child. -/
structure Attempt where
  launch : Launch
  input : Stream
  output : Stream
  errors : Stream
  /-- What the child was given besides its streams. -/
  others : List Opened
  life : Life
  deriving DecidableEq, Repr

/-- The numbers of the children that have not been collected, in the order of their attempts. -/
def uncollectedOf (attempts : List Attempt) : List Pid :=
  attempts.filterMap fun attempt => attempt.life.uncollected?

/-- One attempt of a table turns from one life to another. -/
inductive Turns (old new : Life) : List Attempt → List Attempt → Prop
  | here {attempt : Attempt} {rest : List Attempt} :
      attempt.life = old →
      Turns old new (attempt :: rest) ({ attempt with life := new } :: rest)
  | later {attempt : Attempt} {rest turned : List Attempt} :
      Turns old new rest turned →
      Turns old new (attempt :: rest) (attempt :: turned)

/-- A call and the answer that was given to it. -/
structure Answered where
  call : Call
  given : call.Answer

/-- What the kernel knows of a session. -/
structure Kernel where
  /-- All attempts to start a child, the first attempt first. -/
  attempts : List Attempt := []
  /-- The flag by which the session is told that a child has ended. -/
  reapWanted : Bool := false
  handles : List Held := []
  /-- How many pipes have been made. -/
  pipes : Nat := 0
  /-- How often waits and looks may still be cut short, of what was told when the session asked. -/
  interruptions : Nat := 0
  /-- The calls that have been answered, the latest first. -/
  calls : List Answered := []

namespace Kernel

/-- The numbers of the children that have not been collected. -/
def uncollected (kernel : Kernel) : List Pid :=
  uncollectedOf kernel.attempts

/-- Whether a child has ended that has not been collected. -/
def hasWaiting (kernel : Kernel) : Bool :=
  kernel.attempts.any fun attempt => attempt.life.isWaiting

/-- The attempts from one on, as many as said. -/
def slice (attempts : List Attempt) (start count : Nat) : List Attempt :=
  (attempts.drop start).take count

/-- What a handle stands for. -/
def opened? (kernel : Kernel) (handle : Handle) : Option Opened :=
  (kernel.handles.find? fun held => held.handle = handle).map Held.opened

/-- What a child gets for a stream. -/
def stream (kernel : Kernel) : Option Handle → Stream
  | none => .own
  | some handle =>
      match kernel.opened? handle with
      | some opened => .given opened
      | none => .missing

/-- Whether a handle stands for something. -/
def holds (kernel : Kernel) (handle : Handle) : Bool :=
  kernel.handles.any fun held => held.handle = handle

/-- Enters an attempt to start a child. -/
def enter (kernel : Kernel) (launch : Launch) (life : Life) : Kernel :=
  { kernel with
    attempts := kernel.attempts ++
      [{ launch := launch
         input := kernel.stream launch.input
         output := kernel.stream launch.output
         errors := kernel.stream launch.errors
         others := passedOn kernel.handles
         life := life }] }

/-- Opens a file, which is closed in children. -/
def openFile (kernel : Kernel) (handle : Handle) : Kernel :=
  { kernel with handles := kernel.handles ++ [⟨handle, .file, .closed⟩] }

/-- Makes a pipe with these ends. -/
def pipe (kernel : Kernel) (readEnd writeEnd : Handle) (onExec : OnExec) : Kernel :=
  { kernel with
    handles := kernel.handles ++
      [⟨readEnd, .pipeEnd (.reading kernel.pipes), onExec⟩,
        ⟨writeEnd, .pipeEnd (.writing kernel.pipes), onExec⟩]
    pipes := kernel.pipes + 1 }

/-- Takes a handle back. -/
def drop (kernel : Kernel) (handle : Handle) : Kernel :=
  { kernel with handles := kernel.handles.filter fun held => held.handle ≠ handle }

/-- What a wait tells of a child that ended: nothing of an ending that cannot be told. -/
def told (ending : Ending) : Except Errno ChildChange :=
  (Machine.tellable ending).map .ended

/-- What a look tells of a child that ended. -/
def toldOf (pid : Pid) (ending : Ending) : Except Errno (Option (Pid × ChildChange)) :=
  (told ending).map fun change => some (pid, change)

/-- What may happen at any moment, when only some endings occur. -/
inductive Stirs (endings : Ending → Prop) (kernel : Kernel) : Kernel → Prop
  | childEnds {pid : Pid} {ending : Ending} {turned : List Attempt} :
      endings ending →
      Turns (.running pid) (.ended pid ending) kernel.attempts turned →
      Stirs endings kernel { kernel with attempts := turned, reapWanted := true }
  | alarm :
      Stirs endings kernel { kernel with reapWanted := true }

/-- A wait or a look is cut short, which has to be made again. -/
def IsCutShort (kernel after : Kernel) : Prop :=
  0 < kernel.interruptions ∧ after = { kernel with interruptions := kernel.interruptions - 1 }

/-- The answers to a call, with what the kernel knows after them. -/
def Responds (kernel : Kernel) : (call : Call) → call.Answer → Kernel → Prop
  | .takeFlag .childEnded, taken, after =>
      taken = kernel.reapWanted ∧ after = { kernel with reapWanted := false }
  | .openInput _, .ok handle, after =>
      kernel.holds handle = false ∧ after = kernel.openFile handle
  | .openOutput _ _, .ok handle, after =>
      kernel.holds handle = false ∧ after = kernel.openFile handle
  | .makePipe onExec, .ok (readEnd, writeEnd), after =>
      kernel.holds readEnd = false ∧ kernel.holds writeEnd = false ∧ readEnd ≠ writeEnd ∧
        after = kernel.pipe readEnd writeEnd onExec
  | .close handle, _, after => after = kernel.drop handle
  | .launch launch, .ok pid, after =>
      pid ∉ kernel.uncollected ∧ after = kernel.enter launch (.running pid)
  | .launch launch, .error fault, after =>
      ∃ raised, (kernel.reapWanted → raised = true) ∧
        after = { kernel.enter launch (.refused fault) with reapWanted := raised }
  | .wait pid, given, after =>
      (∃ ending turned,
        Turns (.ended pid ending) (.collected pid ending) kernel.attempts turned ∧
          given = told ending ∧ after = { kernel with attempts := turned }) ∨
        (pid ∉ kernel.uncollected ∧ given = .error .noChild ∧ after = kernel) ∨
        waitResult? pid given = none ∧ kernel.IsCutShort after
  | .lookAtChildren, given, after =>
      (∃ pid ending turned,
        Turns (.ended pid ending) (.collected pid ending) kernel.attempts turned ∧
          given = toldOf pid ending ∧ after = { kernel with attempts := turned }) ∨
        (kernel.hasWaiting = false ∧ Look.ofAnswer given = .nothingLeft ∧ after = kernel) ∨
        given = .error .interrupted ∧ kernel.IsCutShort after
  | .bound .waits, again, after => after = { kernel with interruptions := again }
  | .bound .looksAtChildren, looks, after =>
      ∃ again, kernel.uncollected.length + again ≤ looks ∧
        after = { kernel with interruptions := again }
  | _, _, after => after = kernel

/-- Whether the flag was taken, set, after the last look at the children that found none. -/
def sweeping : List Answered → Bool
  | [] => false
  | ⟨.takeFlag .childEnded, taken⟩ :: earlier => taken || sweeping earlier
  | ⟨.lookAtChildren, given⟩ :: earlier =>
      if Look.ofAnswer given = .nothingLeft then false else sweeping earlier
  | _ :: earlier => sweeping earlier

/-- Whether the session has taken the flag and not yet seen that no child waits. -/
def isSweeping (kernel : Kernel) : Bool :=
  sweeping kernel.calls

/-- The kernel as a world in which children end only in some ways. -/
def world (endings : Ending → Prop) : World Kernel where
  stirs := Stirs endings
  answers call before given after :=
    ∃ answered, before.Responds call given answered ∧
      after = { answered with calls := ⟨call, given⟩ :: before.calls }

end Kernel

/-- Whether it can be told how a child ended: signals without a name cannot. -/
def Ending.IsTold (ending : Ending) : Prop :=
  Machine.tellable ending = .ok ending

/-- Whether the ending has a name: all signals up to the last named one have. -/
def Ending.hasName : Ending → Bool
  | .exited _ => true
  | .killed signal => decide (signal ≤ Machine.lastNamedSignal)

theorem tellable_eq (ending : Ending) :
    Machine.tellable ending =
      if ending.hasName then .ok ending else .error .invalidArgument := by
  cases ending with
  | exited code => rfl
  | killed signal =>
      by_cases named : signal ≤ Machine.lastNamedSignal
      · simp [Machine.tellable, Ending.hasName, named]
      · simp [Machine.tellable, Ending.hasName, named, Nat.lt_of_not_le named]

theorem Ending.isTold_iff {ending : Ending} : ending.IsTold ↔ ending.hasName = true := by
  unfold IsTold
  rw [tellable_eq]
  by_cases named : ending.hasName = true <;> simp [named]

theorem Ending.IsTold.hasName {ending : Ending} (isTold : ending.IsTold) :
    ending.hasName = true :=
  isTold_iff.1 isTold

/-- The kernel in which each child ends in a way that can be told. -/
abbrev Kernel.telling : World Kernel :=
  Kernel.world Ending.IsTold

end JobControl
