import JobControl.Proofs.Kernel
/-!
# What answers do

Whatever is asked, the answer does one of a few things to what the kernel knows of the session.
Everything that is kept by a session is kept by each of them.
-/

namespace JobControl

/-- Whether a call neither starts, signals nor collects a child, nor takes the flag that tells of
ended children. -/
def Call.isPlain : Call → Bool
  | .takeFlag .childEnded => false
  | .launch _ => false
  | .wait _ => false
  | .lookAtChildren => false
  | .sendShutdown _ => false
  | _ => true

/-- The child that the answer to a call has collected. -/
def Answered.collected? : Answered → Option Pid
  | ⟨.wait pid, .ok (.ended _)⟩ => some pid
  | ⟨.lookAtChildren, .ok (some (pid, .ended _))⟩ => some pid
  | _ => none

namespace Kernel

/-- What an answer does to what the kernel knows. -/
inductive Effect (before : Kernel) : Answered → Kernel → Prop
  | keeps {answered : Answered} (interruptions : Nat) :
      answered.collected? = none →
      Effect before answered { before with interruptions := interruptions }
  | takesFlag : Effect before ⟨.takeFlag .childEnded, before.reapWanted⟩
      { before with reapWanted := false }
  | opens {answered : Answered} (handle : Handle) :
      answered.call.isPlain = true → answered.collected? = none →
      Effect before answered (before.openFile handle)
  | makesPipe (readEnd writeEnd : Handle) (onExec : OnExec) :
      Effect before ⟨.makePipe onExec, .ok (readEnd, writeEnd)⟩
        (before.pipe readEnd writeEnd onExec)
  | closes (handle : Handle) : Effect before ⟨.close handle, ()⟩ (before.drop handle)
  | starts {launch : Launch} {pid : Pid} :
      pid ∉ before.uncollected →
      Effect before ⟨.launch launch, .ok pid⟩ (before.enter launch (.running pid))
  | refuses {launch : Launch} {fault : AccessFault} {raised : Bool} :
      (before.reapWanted → raised = true) →
      Effect before ⟨.launch launch, .error fault⟩
        { before.enter launch (.refused fault) with reapWanted := raised }
  | collects {answered : Answered} {pid : Pid} {ending : Ending} {turned : List Attempt} :
      answered.call.isPlain = false →
      (ending.IsTold → answered.collected? = some pid) →
      Turns (.ended pid ending) (.collected pid ending) before.attempts turned →
      Effect before answered { before with attempts := turned }

theorem told_of_isTold {ending : Ending} (isTold : ending.IsTold) :
    told ending = .ok (.ended ending) := by
  rw [told, isTold]
  rfl

private theorem toldOf_of_isTold {ending : Ending} (isTold : ending.IsTold) (pid : Pid) :
    toldOf pid ending = .ok (some (pid, .ended ending)) := by
  rw [toldOf, told_of_isTold isTold]
  rfl

private theorem collected?_of_told {ending : Ending} (pid : Pid) (isTold : ending.IsTold) :
    Answered.collected? ⟨.wait pid, told ending⟩ = some pid := by
  rw [told_of_isTold isTold]
  rfl

private theorem collected?_of_toldOf {ending : Ending} (pid : Pid) (isTold : ending.IsTold) :
    Answered.collected? ⟨.lookAtChildren, toldOf pid ending⟩ = some pid := by
  rw [toldOf_of_isTold isTold]
  rfl

/-- A wait that has to be made again has collected nothing. -/
theorem collected?_of_waitResult? {pid : Pid} {given : Except Errno ChildChange}
    (again : waitResult? pid given = none) : Answered.collected? ⟨.wait pid, given⟩ = none := by
  unfold waitResult? at again
  split at again <;> first | rfl | cases again

/-- A wait that brings a status has collected the child. -/
theorem collected?_of_status {pid : Pid} {given : Except Errno ChildChange} {status : Int}
    (brought : waitResult? pid given = some (.ok status)) :
    Answered.collected? ⟨.wait pid, given⟩ = some pid := by
  unfold waitResult? at brought
  split at brought <;> first | rfl | cases brought

private theorem collected?_of_nothingLeft {given : Except Errno (Option (Pid × ChildChange))}
    (nothing : Look.ofAnswer given = .nothingLeft) :
    Answered.collected? ⟨.lookAtChildren, given⟩ = none := by
  unfold Look.ofAnswer at nothing
  split at nothing <;> first | rfl | cases nothing

theorem Responds.effect {before after : Kernel} {call : Call} {given : call.Answer}
    (responds : before.Responds call given after) : Effect before ⟨call, given⟩ after := by
  cases call with
  | takeFlag signal =>
      cases signal with
      | childEnded =>
          obtain ⟨rfl, rfl⟩ := responds
          exact .takesFlag
      | shutdown =>
          obtain rfl := responds
          exact .keeps _ rfl
  | openInput path =>
      cases given with
      | error fault =>
          obtain rfl := responds
          exact .keeps _ rfl
      | ok handle =>
          obtain ⟨-, rfl⟩ := responds
          exact .opens handle rfl rfl
  | openOutput path permissions =>
      cases given with
      | error fault =>
          obtain rfl := responds
          exact .keeps _ rfl
      | ok handle =>
          obtain ⟨-, rfl⟩ := responds
          exact .opens handle rfl rfl
  | makePipe onExec =>
      cases given with
      | error reason =>
          obtain rfl := responds
          exact .keeps _ rfl
      | ok ends =>
          obtain ⟨-, -, -, rfl⟩ := responds
          exact .makesPipe ends.1 ends.2 onExec
  | close handle =>
      obtain rfl := responds
      exact .closes handle
  | launch launch =>
      cases given with
      | error fault =>
          obtain ⟨raised, kept, rfl⟩ := responds
          exact .refuses kept
      | ok pid =>
          obtain ⟨fresh, rfl⟩ := responds
          exact .starts fresh
  | wait pid =>
      rcases responds with ⟨ending, turned, turns, rfl, rfl⟩ | ⟨-, rfl, rfl⟩ | ⟨again, -, rfl⟩
      · exact .collects rfl (collected?_of_told pid) turns
      · exact .keeps _ rfl
      · exact .keeps _ (collected?_of_waitResult? again)
  | lookAtChildren =>
      rcases responds with
        ⟨pid, ending, turned, turns, rfl, rfl⟩ | ⟨-, nothing, rfl⟩ | ⟨rfl, -, rfl⟩
      · exact .collects rfl (collected?_of_toldOf pid) turns
      · exact .keeps _ (collected?_of_nothingLeft nothing)
      · exact .keeps _ rfl
  | bound what =>
      cases what with
      | waits =>
          obtain rfl := responds
          exact .keeps given rfl
      | looksAtChildren =>
          obtain ⟨again, -, rfl⟩ := responds
          exact .keeps again rfl
      | inputLines =>
          obtain rfl := responds
          exact .keeps _ rfl
  | _ =>
      obtain rfl := responds
      exact .keeps _ rfl

variable {endings : Ending → Prop} {kernel after : Kernel}

/-- Plain calls change nothing about the children and their flag. -/
theorem children_of_plain {call : Call} {given : call.Answer} (plain : call.isPlain = true)
    (answers : (Kernel.world endings).answers call kernel given after) :
    after.attempts = kernel.attempts ∧ after.reapWanted = kernel.reapWanted := by
  obtain ⟨answered, responds, rfl⟩ := answers
  cases responds.effect with
  | keeps _ _ => exact ⟨rfl, rfl⟩
  | takesFlag => cases plain
  | opens _ _ _ => exact ⟨rfl, rfl⟩
  | makesPipe _ _ _ => exact ⟨rfl, rfl⟩
  | closes _ => exact ⟨rfl, rfl⟩
  | starts _ => cases plain
  | refuses _ => cases plain
  | collects apart _ _ =>
      rw [plain] at apart
      cases apart

theorem attempts_of_plain {call : Call} {given : call.Answer} (plain : call.isPlain = true)
    (answers : (Kernel.world endings).answers call kernel given after) :
    after.attempts = kernel.attempts :=
  (children_of_plain plain answers).1

end Kernel

end JobControl
