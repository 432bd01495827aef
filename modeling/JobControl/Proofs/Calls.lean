import JobControl.Builtin
import JobControl.Session.Line
import JobControl.Proofs.Kernel.Effects
import JobControl.Proofs.World.Activity
/-!
# The calls that a program may make

Much of what a session does is plain: it opens, closes and writes files and asks for names and
times, but starts, signals and collects no children.  Which calls a program may make is read off
its tree; a property of the world that such calls keep is kept by the program.
-/

namespace JobControl

variable {α β σ : Type}

/-- Every call that a program may make is allowed, and every result that it may have is good. -/
def Program.Within (allowed : Call → Prop) (good : α → Prop) : Program α → Prop
  | .done result => good result
  | .step call next => allowed call ∧ ∀ given, (next given).Within allowed good

/-- Every call that a program may make is allowed. -/
abbrev Program.Only (allowed : Call → Prop) (program : Program α) : Prop :=
  program.Within allowed fun _ => True

namespace Program

variable {allowed : Call → Prop} {good : α → Prop} {better : β → Prop}

theorem Within.bind {program : Program α} {next : α → Program β}
    (first : program.Within allowed good)
    (others : ∀ result, good result → (next result).Within allowed better) :
    (program >>= next).Within allowed better := by
  induction program with
  | done result =>
      exact others result first
  | step call rest inductionHypothesis =>
      exact ⟨first.1, fun given => inductionHypothesis given (first.2 given)⟩

theorem Within.mono {wider : Call → Prop} {worse : α → Prop} {program : Program α}
    (within : program.Within allowed good) (allow : ∀ call, allowed call → wider call)
    (weaken : ∀ result, good result → worse result) : program.Within wider worse := by
  induction program with
  | done result =>
      exact weaken result within
  | step call next inductionHypothesis =>
      exact ⟨allow call within.1, fun given => inductionHypothesis given (within.2 given)⟩

theorem only_ask {call : Call} (allow : allowed call) : (ask call).Only allowed :=
  ⟨allow, fun _ => trivial⟩

/-- A program that may only have good results has one in every world. -/
theorem Within.result_good {world : World σ} {program : Program α}
    (within : program.Within allowed good) (state : σ) :
    world.Ensures (fun _ _ => True) program (fun result _ => good result) state := by
  induction program generalizing state with
  | done result =>
      exact within
  | step call next inductionHypothesis =>
      exact fun _ _ => ⟨trivial, fun given after _ =>
        inductionHypothesis given (within.2 given) after⟩

/-- What allowed calls and stirs of the world keep, a program of allowed calls keeps. -/
theorem Within.ensures {world : World σ} {fits : Call → σ → Prop} {holds : σ → Prop}
    (stirred : ∀ before after, world.stirs before after → holds before → holds after)
    (fit : ∀ call state, allowed call → holds state → fits call state)
    (answered : ∀ call before given after, allowed call →
      world.answers call before given after → holds before → holds after)
    {program : Program α} (within : program.Within allowed good) {state : σ}
    (initially : holds state) :
    world.Ensures fits program (fun result after => good result ∧ holds after) state := by
  induction program generalizing state with
  | done result =>
      exact ⟨within, initially⟩
  | step call next inductionHypothesis =>
      intro asked drift
      have still : holds asked := by
        induction drift with
        | refl => exact initially
        | tail _ stirs kept => exact stirred _ _ stirs kept
      refine ⟨fit call asked within.1 still, fun given after answers => ?_⟩
      exact inductionHypothesis given (within.2 given)
        (answered call asked given after within.1 answers still)

end Program

/-! ## Outcomes -/

/-- Whether the session has to end. -/
def Stop.isFatal : Stop → Bool
  | .failure reason => reason.isFatal
  | .breach _ => false

/-- An outcome after which the session may go on. -/
def IsTame (outcome : Except Stop α) : Prop :=
  ∀ stop, outcome = .error stop → stop.isFatal = false

theorem isTame_ok (result : α) : IsTame (.ok result : Except Stop α) :=
  fun _ equal => nomatch equal

theorem isTame_error {stop : Stop} (tame : stop.isFatal = false) :
    IsTame (.error stop : Except Stop α) := by
  intro other equal
  cases equal
  exact tame

theorem IsTame.of_error {stop : Stop} (tame : IsTame (.error stop : Except Stop α)) :
    IsTame (.error stop : Except Stop β) :=
  isTame_error (tame stop rfl)

/-! ## Actions by their calls -/

/-- Every call of an action is allowed, and it stops only for some reasons. -/
def Action.Makes (allowed : Call → Prop) (stops : Stop → Prop) (action : Action α) : Prop :=
  Program.Within allowed (fun outcome => ∀ stop, outcome = .error stop → stops stop) action.run

namespace Action

variable {allowed : Call → Prop} {stops : Stop → Prop}

theorem makes_pure (result : α) : (pure result : Action α).Makes allowed stops :=
  fun _ equal => nomatch equal

theorem makes_throw {stop : Stop} (stopped : stops stop) :
    (throw stop : Action α).Makes allowed stops := by
  intro other equal
  cases equal
  exact stopped

theorem makes_ask {call : Call} (allow : allowed call) : (Action.ask call).Makes allowed stops :=
  ⟨allow, fun _ _ equal => nomatch equal⟩

theorem makes_lift {program : Program α} (only : program.Only allowed) :
    (liftM program : Action α).Makes allowed stops :=
  Program.Within.bind only fun _ _ _ equal => nomatch equal

theorem Makes.bind {action : Action α} {next : α → Action β} (first : action.Makes allowed stops)
    (others : ∀ result, (next result).Makes allowed stops) :
    (action >>= next).Makes allowed stops := by
  unfold Makes
  rw [ExceptT.run_bind]
  refine Program.Within.bind first fun outcome stopped => ?_
  cases outcome with
  | ok result => exact others result
  | error stop =>
      intro other equal
      cases equal
      exact stopped stop rfl

theorem Makes.mono {wider : Call → Prop} {more : Stop → Prop} {action : Action α}
    (makes : action.Makes allowed stops) (allow : ∀ call, allowed call → wider call)
    (weaken : ∀ stop, stops stop → more stop) : action.Makes wider more :=
  Program.Within.mono makes allow fun _ stopped stop equal => weaken stop (stopped stop equal)

theorem notice_makes {outlet : Outlet} {text : String} (allow : allowed (.write outlet text))
    (stopped : ∀ reason, stops (.breach (.noticeLost outlet reason))) :
    (notice outlet text).Makes allowed stops := by
  refine Makes.bind (makes_ask allow) fun answer => ?_
  cases answer with
  | ok _ => exact makes_pure ()
  | error reason => exact makes_throw (stopped reason)

end Action

section Waiting

variable {allowed : Call → Prop} {stops : Stop → Prop}

theorem waitResult?_error {pid : Pid} {answer : Except Errno ChildChange} {stop : Stop}
    (failed : waitResult? pid answer = some (.error stop)) :
    stop = .failure (.waitFailed pid.number) := by
  unfold waitResult? at failed
  split at failed <;> cases failed
  rfl

private theorem waitTimes_makes {pid : Pid} (allow : allowed (.wait pid))
    (stopped : stops (.failure (.waitFailed pid.number))) (times : Nat) :
    (waitTimes pid times).Makes allowed stops := by
  induction times with
  | zero => exact Action.makes_throw stopped
  | succ times inductionHypothesis =>
      refine Action.Makes.bind (Action.makes_ask allow) fun answer => ?_
      cases brought : waitResult? pid answer with
      | none => exact inductionHypothesis
      | some result =>
          rintro stop rfl
          rw [waitResult?_error brought]
          exact stopped

theorem waitFor_makes {pid : Pid} (asks : allowed (.bound .waits)) (allow : allowed (.wait pid))
    (stopped : stops (.failure (.waitFailed pid.number))) :
    (waitFor pid).Makes allowed stops :=
  Action.Makes.bind (Action.makes_ask asks) fun _ => waitTimes_makes allow stopped _

theorem waitForProcesses_makes (asks : allowed (.bound .waits))
    (allow : ∀ pid, allowed (.wait pid))
    (stopped : ∀ number, stops (.failure (.waitFailed number))) (last : Option Pid)
    (known : Option Int) (pids : List Pid) :
    (waitForProcesses last known pids).Makes allowed stops := by
  induction pids generalizing known with
  | nil => exact Action.makes_pure _
  | cons pid rest inductionHypothesis =>
      exact Action.Makes.bind (waitFor_makes asks (allow pid) (stopped pid.number))
        fun status => inductionHypothesis _

/-- To wait for a step makes the calls of a wait for its process, if any. -/
theorem StartedStep.wait_within (asks : allowed (.bound .waits))
    (allow : ∀ pid, allowed (.wait pid))
    (stopped : ∀ number, stops (.failure (.waitFailed number))) (step : StartedStep) :
    Program.Within allowed (fun result => ∀ stop, result.1 = .error stop → stops stop)
      step.wait := by
  unfold StartedStep.wait
  split
  · exact fun _ equal => nomatch equal
  · exact fun _ equal => nomatch equal
  · rename_i pid running
    refine Program.Within.bind (waitFor_makes asks (allow pid) (stopped pid.number))
      fun outcome fine => ?_
    cases outcome with
    | ok status => exact fun _ equal => nomatch equal
    | error stop => exact fun other equal => fine other (Except.error.inj equal ▸ rfl)

theorem waitForAll_within (asks : allowed (.bound .waits)) (allow : ∀ pid, allowed (.wait pid))
    (stopped : ∀ number, stops (.failure (.waitFailed number))) (steps : List StartedStep) :
    Program.Within allowed (fun result => ∀ stop, result.1 = .error stop → stops stop)
      (waitForAll steps) := by
  induction steps with
  | nil => exact fun _ equal => nomatch equal
  | cons step rest inductionHypothesis =>
      refine Program.Within.bind (step.wait_within asks allow stopped)
        fun ⟨outcome, waited⟩ fine => ?_
      cases outcome with
      | error stop => exact fun other equal => fine other (Except.error.inj equal ▸ rfl)
      | ok status =>
          refine Program.Within.bind inductionHypothesis fun ⟨later, left⟩ fineToo => ?_
          cases later with
          | error stop => exact fun other equal => fineToo other equal
          | ok last => exact fun _ equal => nomatch equal

end Waiting

/-- Whether a call is made to wait for a process. -/
def Call.isOfWaits : Call → Bool
  | .bound .waits | .wait _ => true
  | _ => false

theorem waitForAll_onlyWaits (steps : List StartedStep) :
    (waitForAll steps).Only fun call => call.isOfWaits = true := by
  have within : Program.Within (fun call => call.isOfWaits = true)
      (fun result => ∀ stop, result.1 = .error stop → True) (waitForAll steps) :=
    waitForAll_within (by rfl) (fun _ => rfl) (fun _ => trivial) steps
  exact within.mono (fun _ allowed => allowed) fun _ _ => trivial

/-- A stop after which the session may go on. -/
def Stop.IsTame (stop : Stop) : Prop :=
  stop.isFatal = false

/-- A failure that ends only the line at hand. -/
def Stop.IsRoutine (stop : Stop) : Prop :=
  ∃ failure, stop = .failure failure ∧ failure.isFatal = false

private theorem Stop.IsRoutine.isTame {stop : Stop} (routine : stop.IsRoutine) : stop.IsTame := by
  obtain ⟨failure, rfl, slight⟩ := routine
  exact slight

/-! ## Plain actions -/

/-- Every call of an action is plain, and it does not end the session. -/
def Action.IsPlain (action : Action α) : Prop :=
  Program.Within (fun call => call.isPlain = true) IsTame action.run

namespace Action

theorem isPlain_pure (result : α) : (pure result : Action α).IsPlain :=
  isTame_ok result

theorem isPlain_throw {stop : Stop} (tame : stop.isFatal = false) :
    (throw stop : Action α).IsPlain :=
  isTame_error tame

theorem isPlain_ask {call : Call} (plain : call.isPlain = true) : (Action.ask call).IsPlain :=
  ⟨plain, fun given => isTame_ok given⟩

theorem IsPlain.bind {action : Action α} {next : α → Action β} (first : action.IsPlain)
    (others : ∀ result, (next result).IsPlain) : (action >>= next).IsPlain :=
  Makes.bind first others

/-- Actions whose calls are of a plain kind are plain. -/
theorem Makes.isPlain {kind : Call → Bool} {action : Action α}
    (makes : action.Makes (fun call => kind call = true) Stop.IsRoutine)
    (plain : ∀ call, kind call = true → call.isPlain = true) : action.IsPlain :=
  makes.mono plain fun _ routine => routine.isTame

/-- An action that is plain is so as an activity, and leaves the session as it is. -/
theorem IsPlain.within {action : Action α} (plain : action.IsPlain) (session : Session) :
    Program.Within (fun call => call.isPlain = true)
      (fun result => IsTame result.1 ∧ result.2 = session)
      ((liftM action : Activity α).perform session) :=
  Program.Within.bind plain fun _ tame => ⟨tame, rfl⟩

theorem write_isPlain (outlet : Outlet) (text : String) : (write outlet text).IsPlain := by
  refine IsPlain.bind (isPlain_ask rfl) fun answer => ?_
  cases answer with
  | ok _ => exact isPlain_pure ()
  | error reason => exact isPlain_throw rfl

theorem notice_isPlain (outlet : Outlet) (text : String) : (notice outlet text).IsPlain :=
  notice_makes rfl fun _ => rfl

theorem complain_isPlain (failure : Failure) : (complain failure).IsPlain :=
  notice_isPlain _ _

end Action

/-! ## Opening and closing files -/

/-- Whether a call opens or closes a file. -/
def Call.isOfFiles : Call → Bool
  | .openInput _ | .openOutput _ _ | .close _ => true
  | _ => false

private theorem Call.isPlain_of_isOfFiles (call : Call) (files : call.isOfFiles = true) :
    call.isPlain = true := by
  cases call <;> first | rfl | cases files

/-- Every call of an action opens or closes a file, and its failures end only the line. -/
abbrev Action.IsOfFiles (action : Action α) : Prop :=
  action.Makes (fun call => call.isOfFiles = true) Stop.IsRoutine

namespace Redirections

private theorem openInput_isOfFiles (path : String) : (openInput path).IsOfFiles := by
  refine Action.Makes.bind (Action.makes_ask rfl) fun answer => ?_
  split
  · exact Action.makes_pure _
  · exact Action.makes_throw ⟨_, rfl, rfl⟩
  · exact Action.makes_throw ⟨_, rfl, rfl⟩

private theorem openOutput_isOfFiles (path : String) : (openOutput path).IsOfFiles := by
  refine Action.Makes.bind (Action.makes_ask rfl) fun answer => ?_
  split
  · exact Action.makes_pure _
  · exact Action.makes_throw ⟨_, rfl, rfl⟩

private theorem openNamed_isOfFiles {opening : String → Action Handle}
    (files : ∀ path, (opening path).IsOfFiles) (name : Option String) :
    (openNamed opening name).IsOfFiles := by
  cases name with
  | none => exact Action.makes_pure none
  | some path =>
      exact Action.Makes.bind (files path) fun handle => Action.makes_pure (some handle)

theorem closeHandle_ofFiles (handle : Option Handle) :
    (closeHandle handle).Only fun call => call.isOfFiles = true := by
  cases handle with
  | none => exact trivial
  | some handle => exact Program.only_ask rfl

private theorem closeAll_ofFiles (handles : List (Option Handle)) :
    (handles.forM closeHandle).Only fun call => call.isOfFiles = true := by
  induction handles with
  | nil =>
      exact trivial
  | cons handle rest inductionHypothesis =>
      exact Program.Within.bind (closeHandle_ofFiles handle) fun _ _ => inductionHypothesis

private theorem closingOnStop_isOfFiles {held : List (Option Handle)} {action : Action α}
    (files : action.IsOfFiles) : (closingOnStop held action).IsOfFiles := by
  refine Program.Within.bind files fun outcome tame => ?_
  cases outcome with
  | ok result => exact tame
  | error stop => exact Program.Within.bind (closeAll_ofFiles held) fun _ _ => tame

private theorem resolve_isOfFiles (job : Job) : (resolve job).IsOfFiles := by
  unfold resolve
  split
  · exact Action.makes_throw ⟨_, rfl, rfl⟩
  · refine Action.Makes.bind (openNamed_isOfFiles openInput_isOfFiles _) fun input => ?_
    refine Action.Makes.bind
      (closingOnStop_isOfFiles (openNamed_isOfFiles openOutput_isOfFiles _)) fun output => ?_
    refine Action.Makes.bind
      (closingOnStop_isOfFiles (openNamed_isOfFiles openOutput_isOfFiles _)) fun errors => ?_
    exact Action.makes_pure _

theorem close_ofFiles (redirections : Redirections) :
    redirections.close.Only fun call => call.isOfFiles = true :=
  Program.Within.bind (closeHandle_ofFiles _) fun _ _ =>
    Program.Within.bind (closeHandle_ofFiles _) fun _ _ => closeHandle_ofFiles _

theorem closeHandle_plain (handle : Option Handle) :
    (closeHandle handle).Only fun call => call.isPlain = true :=
  (closeHandle_ofFiles handle).mono Call.isPlain_of_isOfFiles fun _ good => good

theorem close_plain (redirections : Redirections) :
    redirections.close.Only fun call => call.isPlain = true :=
  (close_ofFiles redirections).mono Call.isPlain_of_isOfFiles fun _ good => good

end Redirections

namespace Session

theorem announceDone_isPlain (entries : List Entry) : (announceDone entries).IsPlain := by
  induction entries with
  | nil =>
      exact Action.isPlain_pure ()
  | cons entry rest inductionHypothesis =>
      exact Action.IsPlain.bind (Action.notice_isPlain _ _) fun _ => inductionHypothesis

/-- What acting on signals ends with: a shutdown signal is told of. -/
def tellShutdown : Activity Unit := do
  if ← (Action.ask (.takeFlag .shutdown) : Action Bool) then
    let moment ← (Action.ask .now : Action Moment)
    Action.notice .errors s!"jobsh: received SIGUSR2 at {moment.describe}\n"

theorem tellShutdown_within (session : Session) :
    Program.Within (fun call => call.isPlain = true)
      (fun result => IsTame result.1 ∧ result.2 = session) (tellShutdown.perform session) := by
  refine ⟨rfl, fun taken => ?_⟩
  cases taken with
  | false => exact ⟨isTame_ok (), rfl⟩
  | true =>
      refine ⟨rfl, fun moment => ?_⟩
      exact Action.IsPlain.within (Action.notice_isPlain _ _) session

theorem announceTerminated_isPlain (outlet : Outlet) (entries : List Entry) :
    (announceTerminated outlet entries).IsPlain := by
  induction entries with
  | nil =>
      exact Action.isPlain_pure ()
  | cons entry rest inductionHypothesis =>
      exact Action.IsPlain.bind (Action.write_isPlain _ _) fun _ => inductionHypothesis

theorem streamsOf_isOfFiles (job : Job) : (streamsOf job).IsOfFiles := by
  unfold streamsOf
  split
  · exact Action.makes_pure _
  · exact Redirections.resolve_isOfFiles job

theorem streamsOf_isPlain (job : Job) : (streamsOf job).IsPlain :=
  (streamsOf_isOfFiles job).isPlain Call.isPlain_of_isOfFiles

end Session

/-! ## Asking for places -/

/-- Whether a call asks for the name of a directory. -/
def Call.isOfPlaces : Call → Bool
  | .environment _ | .accountHome | .currentDirectory => true
  | _ => false

theorem Call.isPlain_of_isOfPlaces (call : Call) (places : call.isOfPlaces = true) :
    call.isPlain = true := by
  cases call <;> first | rfl | cases places

/-- Every call of an action asks for the name of a directory, and its failures end only the
line. -/
abbrev Action.IsOfPlaces (action : Action α) : Prop :=
  action.Makes (fun call => call.isOfPlaces = true) Stop.IsRoutine

namespace Builtin

private theorem homeDirectory_isOfPlaces : homeDirectory.IsOfPlaces := by
  refine Action.Makes.bind (Action.makes_ask rfl) fun home => ?_
  cases home with
  | none =>
      exact Action.makes_ask rfl
  | some path =>
      dsimp only
      split
      · exact Action.makes_ask rfl
      · exact Action.makes_pure _

theorem currentDirectory_isOfPlaces : currentDirectory.IsOfPlaces := by
  refine Action.Makes.bind (Action.makes_ask rfl) fun answer => ?_
  cases answer with
  | ok directory => exact Action.makes_pure _
  | error reason => exact Action.makes_throw ⟨_, rfl, rfl⟩

private theorem enterHome_isOfPlaces : directoryToEnter.enterHome.IsOfPlaces := by
  refine Action.Makes.bind homeDirectory_isOfPlaces fun home => ?_
  cases home with
  | none => exact Action.makes_throw ⟨_, rfl, rfl⟩
  | some path => exact Action.makes_pure _

theorem directoryToEnter_isOfPlaces (previous : Option RawText) (operand : Option String) :
    (directoryToEnter previous operand).IsOfPlaces := by
  unfold directoryToEnter
  split
  · split
    · exact Action.makes_pure _
    · exact Action.makes_throw ⟨_, rfl, rfl⟩
  · split
    · exact enterHome_isOfPlaces
    · exact Action.makes_pure _
  · exact enterHome_isOfPlaces

theorem currentDirectory_isPlain : currentDirectory.IsPlain :=
  currentDirectory_isOfPlaces.isPlain Call.isPlain_of_isOfPlaces

theorem directoryToEnter_isPlain (previous : Option RawText) (operand : Option String) :
    (directoryToEnter previous operand).IsPlain :=
  (directoryToEnter_isOfPlaces previous operand).isPlain Call.isPlain_of_isOfPlaces

theorem listJobs_isPlain (outlet : Outlet) (entries : List Entry) :
    (listJobs outlet entries).IsPlain := by
  induction entries with
  | nil =>
      exact Action.isPlain_pure ()
  | cons entry rest inductionHypothesis =>
      exact Action.IsPlain.bind (Action.write_isPlain _ _) fun _ => inductionHypothesis

end Builtin

end JobControl
