import JobControl.Proofs.Sessions
/-!
# Kept promises

A line is run without a breach, whatever it says and whatever is answered: the job that is read off
it has a step, an entry is only made for started processes.  What remains are notices that cannot
be written.  On the way no line of the standard input is asked for.
-/

namespace JobControl

variable {α β : Type}

/-- Whether a call is about the lines of the standard input. -/
def Call.isOfInput : Call → Bool
  | .readLine | .bound .inputLines => true
  | _ => false

/-- Whether a builtin may make a call: it writes, asks for directories and enters one, and signals
children and waits for them. -/
def Call.isOfBuiltins : Call → Bool
  | .write _ _ | .environment _ | .accountHome | .currentDirectory | .changeDirectory _ => true
  | .sendShutdown _ | .bound .waits | .wait _ => true
  | _ => false

private theorem Call.isOfInput_of_isOfBuiltins (call : Call) (inside : call.isOfBuiltins = true) :
    call.isOfInput = false := by
  unfold isOfBuiltins at inside
  split at inside <;> first | rfl | cases inside

/-- Whether a stop breaks no promise: it is a failure, or a notice could not be written. -/
def Stop.isSound : Stop → Bool
  | .failure _ => true
  | .breach (.noticeLost _ _) => true
  | .breach _ => false

/-- Failures break no promise. -/
theorem Stop.IsRoutine.isSound {stop : Stop} (routine : stop.IsRoutine) : stop.isSound = true := by
  obtain ⟨failure, rfl, -⟩ := routine
  rfl

/-- An action that asks for no input and breaks no promise. -/
abbrev Action.IsSound (action : Action α) : Prop :=
  action.Makes (fun call => call.isOfInput = false) fun stop => stop.isSound = true

/-- An action that makes the calls of a builtin and breaks no promise. -/
abbrev Action.IsOfBuiltins (action : Action α) : Prop :=
  action.Makes (fun call => call.isOfBuiltins = true) fun stop => stop.isSound = true

namespace Action

/-- What follows a program may rely on what is said of its result. -/
theorem makes_lift_bind {allowed : Call → Prop} {stops : Stop → Prop} {program : Program α}
    {good : α → Prop} {next : α → Action β} (within : program.Within allowed good)
    (others : ∀ result, good result → (next result).Makes allowed stops) :
    ((liftM program : Action α) >>= next).Makes allowed stops := by
  unfold Makes
  rw [ExceptT.run_bind]
  have lifted : Program.Within allowed (fun outcome => ∃ result, outcome = .ok result ∧ good result)
      (liftM program : Action α).run :=
    Program.Within.bind within fun result fine => ⟨result, rfl, fine⟩
  apply Program.Within.bind lifted
  rintro _ ⟨result, rfl, fine⟩
  exact others result fine

private theorem Makes.isSound {kind : Call → Bool} {action : Action α}
    (makes : action.Makes (fun call => kind call = true) Stop.IsRoutine)
    (apart : ∀ call, kind call = true → call.isOfInput = false) : action.IsSound :=
  makes.mono apart fun _ routine => routine.isSound

private theorem notice_isSound (outlet : Outlet) (text : String) : (notice outlet text).IsSound :=
  notice_makes rfl fun _ => rfl

private theorem complain_isSound (failure : Failure) : (complain failure).IsSound :=
  notice_isSound _ _

private theorem write_isOfBuiltins (outlet : Outlet) (text : String) :
    (write outlet text).IsOfBuiltins := by
  refine Makes.bind (makes_ask rfl) fun answer => ?_
  cases answer with
  | ok _ => exact makes_pure ()
  | error reason => exact makes_throw rfl

end Action

/-! ## Starting and waiting -/

private theorem Call.isOfInput_of_isOfFiles (call : Call) (files : call.isOfFiles = true) :
    call.isOfInput = false := by
  cases call <;> first | rfl | cases files

private theorem Redirections.closeHandle_asksNoInput (handle : Option Handle) :
    (closeHandle handle).Only fun call => call.isOfInput = false :=
  (closeHandle_ofFiles handle).mono Call.isOfInput_of_isOfFiles fun _ good => good

private theorem waitForProcesses_isOfBuiltins (last : Option Pid) (known : Option Int)
    (pids : List Pid) :
    (waitForProcesses last known pids).IsOfBuiltins :=
  waitForProcesses_makes (by rfl) (fun _ => rfl) (fun _ => rfl) last known pids

/-- The wait for all steps asks for no input and breaks no promise. -/
theorem waitForAll_isSound (steps : List StartedStep) :
    Program.Within (fun call => call.isOfInput = false)
      (fun result => ∀ stop, result.1 = .error stop → stop.isSound = true) (waitForAll steps) :=
  waitForAll_within (by rfl) (fun _ => rfl) (fun _ => rfl) steps

private theorem startStep_isSound (step : Step) (streams : Redirections) :
    (startStep step streams).IsSound := by
  refine Action.Makes.bind (Action.makes_ask rfl) fun answer => ?_
  cases answer with
  | ok pid => exact Action.makes_pure _
  | error fault =>
      exact Action.Makes.bind (Action.complain_isSound _) fun _ => Action.makes_pure _

private theorem startPipeline_isSound (source : Option Handle) (started : List StartedStep)
    (steps : List Step) : (startPipeline source started steps).IsSound := by
  induction steps generalizing source started with
  | nil => exact Action.makes_pure _
  | cons step rest inductionHypothesis =>
      have closes : (liftM (Redirections.closeHandle source) : Action Unit).IsSound :=
        Action.makes_lift (Redirections.closeHandle_asksNoInput source)
      cases rest with
      | nil =>
          refine Action.Makes.bind (startStep_isSound step _) fun last => ?_
          exact Action.Makes.bind closes fun _ => Action.makes_pure _
      | cons next others =>
          refine Action.Makes.bind (Action.makes_ask rfl) fun answer => ?_
          cases answer with
          | error reason =>
              refine Action.Makes.bind closes fun _ => ?_
              refine Action.makes_lift_bind (waitForAll_isSound started) fun ⟨waited, _⟩ sound => ?_
              cases waited with
              | error stop => exact Action.makes_throw (sound stop rfl)
              | ok _ => exact Action.makes_throw rfl
          | ok ends =>
              refine Action.Makes.bind (startStep_isSound step _) fun first => ?_
              refine Action.Makes.bind closes fun _ => ?_
              refine Action.Makes.bind (Action.makes_ask rfl) fun _ => ?_
              exact inductionHypothesis _ _

private theorem startSteps_isSound (job : Job) (streams : Redirections) :
    (startSteps job streams).IsSound := by
  unfold startSteps
  split
  · exact startPipeline_isSound none [] job.steps
  · refine Action.Makes.bind (startStep_isSound job.first streams) fun step => ?_
    have closes : (liftM streams.close : Action Unit).IsSound := Action.makes_lift
      ((Redirections.close_ofFiles streams).mono Call.isOfInput_of_isOfFiles fun _ good => good)
    exact Action.Makes.bind closes fun _ => Action.makes_pure _

private theorem sendShutdown_ofBuiltins (pids : List Pid) :
    (sendShutdown pids).Only fun call => call.isOfBuiltins = true := by
  induction pids with
  | nil => exact trivial
  | cons pid rest inductionHypothesis => exact ⟨rfl, fun _ => inductionHypothesis⟩

private theorem stopProcesses_isOfBuiltins (pids : List Pid) :
    (stopProcesses pids).IsOfBuiltins := by
  refine Action.Makes.bind (Action.makes_lift (sendShutdown_ofBuiltins pids)) fun _ => ?_
  exact Action.Makes.bind (waitForProcesses_isOfBuiltins none none pids)
    fun _ => Action.makes_pure ()

private theorem stopProcesses_isSound (pids : List Pid) : (stopProcesses pids).IsSound :=
  (stopProcesses_isOfBuiltins pids).mono Call.isOfInput_of_isOfBuiltins fun _ sound => sound

/-! ## Activities by their calls -/

/-- Every call of an activity is allowed, and it stops only for some reasons. -/
def Activity.Makes (allowed : Call → Prop) (stops : Stop → Prop) (activity : Activity α) : Prop :=
  ∀ session, Program.Within allowed (fun result => ∀ stop, result.1 = .error stop → stops stop)
    (activity.perform session)

namespace Activity

variable {allowed : Call → Prop} {stops : Stop → Prop}

theorem makes_pure (result : α) : (pure result : Activity α).Makes allowed stops :=
  fun _ _ equal => nomatch equal

theorem makes_throw {stop : Stop} (stopped : stops stop) :
    (throw stop : Activity α).Makes allowed stops :=
  fun _ _ equal => Except.error.inj equal ▸ stopped

private theorem makes_set (changed : Session) :
    (set changed : Activity PUnit).Makes allowed stops :=
  fun _ _ equal => nomatch equal

private theorem makes_modify (change : Session → Session) :
    (modify change : Activity PUnit).Makes allowed stops :=
  fun _ _ equal => nomatch equal

theorem makes_lift {action : Action α} (makes : action.Makes allowed stops) :
    (liftM action : Activity α).Makes allowed stops :=
  fun _ => Program.Within.bind makes fun _ stopped => stopped

theorem Makes.bind {activity : Activity α} {next : α → Activity β}
    (first : activity.Makes allowed stops) (others : ∀ result, (next result).Makes allowed stops) :
    (activity >>= next).Makes allowed stops := by
  intro session
  unfold perform
  rw [ExceptT.run_bind, StateT.run_bind]
  apply Program.Within.bind (first session)
  intro ⟨outcome, changed⟩ stopped
  cases outcome with
  | ok result => exact others result changed
  | error stop => exact fun other equal => stopped other (Except.error.inj equal ▸ rfl)

theorem Makes.get_bind {next : Session → Activity β}
    (others : ∀ session, (next session).Makes allowed stops) :
    (get >>= next).Makes allowed stops :=
  fun session => others session session

/-- What follows a program may rely on what is said of its result. -/
theorem makes_lift_bind {program : Program α} {good : α → Prop} {next : α → Activity β}
    (within : program.Within allowed good)
    (others : ∀ result, good result → (next result).Makes allowed stops) :
    ((liftM (liftM program : Action α) : Activity α) >>= next).Makes allowed stops := by
  intro session
  have lifted : Program.Within allowed
      (fun result => ∃ value, result = (Except.ok value, session) ∧ good value)
      ((liftM (liftM program : Action α) : Activity α).perform session) := by
    refine Program.Within.bind (Program.Within.bind within fun value fine => ?_) fun _ told => told
    exact ⟨value, rfl, fine⟩
  unfold perform
  rw [ExceptT.run_bind, StateT.run_bind]
  apply Program.Within.bind lifted
  rintro _ ⟨value, rfl, fine⟩
  exact others value fine session

theorem Makes.mono {wider : Call → Prop} {more : Stop → Prop} {activity : Activity α}
    (makes : activity.Makes allowed stops) (allow : ∀ call, allowed call → wider call)
    (weaken : ∀ stop, stops stop → more stop) : activity.Makes wider more :=
  fun session =>
    (makes session).mono allow fun _ stopped stop equal => weaken stop (stopped stop equal)

end Activity

/-- An action that asks for no input and breaks no promise, as an activity. -/
abbrev Activity.IsSound (activity : Activity α) : Prop :=
  activity.Makes (fun call => call.isOfInput = false) fun stop => stop.isSound = true

/-- An action that makes the calls of a builtin and breaks no promise, as an activity. -/
abbrev Activity.IsOfBuiltins (activity : Activity α) : Prop :=
  activity.Makes (fun call => call.isOfBuiltins = true) fun stop => stop.isSound = true

/-! ## What a session does -/

private theorem Activity.fail_isSound (failure : Failure) :
    (Activity.fail failure : Activity α).IsSound :=
  Activity.makes_throw rfl

namespace Session

private theorem recordStatus_makes {allowed : Call → Prop} {stops : Stop → Prop}
    (status : Option Int) :
    (recordStatus status).Makes allowed stops := by
  cases status with
  | none => exact Activity.makes_pure ()
  | some known => exact Activity.makes_modify _

private theorem announceDone_isSound (entries : List Entry) : (announceDone entries).IsSound := by
  induction entries with
  | nil => exact Action.makes_pure ()
  | cons entry rest inductionHypothesis =>
      exact Action.Makes.bind (Action.notice_isSound _ _) fun _ => inductionHypothesis

private theorem lookAtChildren_asksNoInput (looks : Nat) :
    (lookAtChildren looks).Only fun call => call.isOfInput = false := by
  induction looks with
  | zero => exact trivial
  | succ looks inductionHypothesis =>
      refine Program.Within.bind (Program.only_ask rfl) fun answer _ => ?_
      split
      · exact trivial
      · exact inductionHypothesis
      · exact trivial
      · exact Program.Within.bind inductionHypothesis fun _ _ => trivial

private theorem reapChildren_asksNoInput (registry : Registry) :
    (reapChildren registry).Only fun call => call.isOfInput = false :=
  Program.Within.bind (Program.only_ask rfl) fun looks _ =>
    Program.Within.bind (lookAtChildren_asksNoInput (looks + 1)) fun _ _ => trivial

private theorem tellShutdown_isSound : tellShutdown.IsSound := by
  refine Activity.Makes.bind (Activity.makes_lift (Action.makes_ask rfl)) fun taken => ?_
  cases taken with
  | false => exact Activity.makes_pure ()
  | true =>
      refine Activity.Makes.bind (Activity.makes_lift (Action.makes_ask rfl)) fun moment => ?_
      exact Activity.makes_lift (Action.notice_isSound _ _)

private theorem processSignals_isSound : processSignals.IsSound := by
  refine Activity.Makes.bind (Activity.makes_lift (Action.makes_ask rfl)) fun taken => ?_
  cases taken with
  | false => exact tellShutdown_isSound
  | true =>
      refine Activity.Makes.get_bind fun session => ?_
      refine Activity.Makes.bind (Activity.makes_lift
        (Action.makes_lift (reapChildren_asksNoInput session.jobs))) fun found => ?_
      refine Activity.Makes.bind (Activity.makes_set _) fun _ => ?_
      refine Activity.Makes.bind (Activity.makes_lift (announceDone_isSound found.1)) fun _ => ?_
      exact tellShutdown_isSound

private theorem bringToForeground_isOfBuiltins (wanted : Option Pid) (outlet : Outlet) :
    (bringToForeground wanted outlet).IsOfBuiltins := by
  refine Activity.Makes.get_bind fun session => ?_
  cases takeJob session.jobs wanted with
  | error failure => exact Activity.makes_throw rfl
  | ok taken =>
      obtain ⟨entry, jobs⟩ := taken
      refine Activity.Makes.bind (Activity.makes_set _) fun _ => ?_
      refine Activity.Makes.bind
        (Activity.makes_lift (Action.write_isOfBuiltins _ _)) fun _ => ?_
      refine Activity.Makes.bind
        (Activity.makes_lift (waitForProcesses_isOfBuiltins _ _ _)) fun status => ?_
      exact recordStatus_makes status

private theorem signalJobs_ofBuiltins (entries : List Entry) :
    (signalJobs entries).Only fun call => call.isOfBuiltins = true := by
  induction entries with
  | nil => exact trivial
  | cons entry rest inductionHypothesis =>
      exact Program.Within.bind (sendShutdown_ofBuiltins _) fun _ _ => inductionHypothesis

private theorem announceTerminated_isOfBuiltins (outlet : Outlet) (entries : List Entry) :
    (announceTerminated outlet entries).IsOfBuiltins := by
  induction entries with
  | nil => exact Action.makes_pure ()
  | cons entry rest inductionHypothesis =>
      exact Action.Makes.bind (Action.write_isOfBuiltins _ _) fun _ => inductionHypothesis

private theorem exit_isOfBuiltins (outlet : Outlet) : (Session.exit outlet).IsOfBuiltins := by
  refine Activity.Makes.get_bind fun session => ?_
  refine Activity.Makes.bind (Activity.makes_set _) fun _ => ?_
  refine Activity.Makes.bind (Activity.makes_lift
    (Action.makes_lift (signalJobs_ofBuiltins session.jobs.entries))) fun _ => ?_
  refine Activity.Makes.bind
    (Activity.makes_lift (announceTerminated_isOfBuiltins _ _)) fun _ => ?_
  exact Activity.makes_modify _

end Session

/-! ## Builtins -/

private theorem Call.isOfBuiltins_of_isOfPlaces (call : Call) (places : call.isOfPlaces = true) :
    call.isOfBuiltins = true := by
  cases call <;> first | rfl | cases places

namespace Builtin

private theorem listJobs_isOfBuiltins (outlet : Outlet) (entries : List Entry) :
    (listJobs outlet entries).IsOfBuiltins := by
  induction entries with
  | nil => exact Action.makes_pure ()
  | cons entry rest inductionHypothesis =>
      exact Action.Makes.bind (Action.write_isOfBuiltins _ _) fun _ => inductionHypothesis

private theorem changeDirectory_isOfBuiltins (operand : Option String) (outlet : Outlet) :
    (changeDirectory operand outlet).IsOfBuiltins := by
  have asks : ∀ {result : Type} {action : Action result}, action.IsOfPlaces →
      action.IsOfBuiltins :=
    fun places => places.mono Call.isOfBuiltins_of_isOfPlaces fun _ routine => routine.isSound
  refine Activity.Makes.get_bind fun session => ?_
  refine Activity.Makes.bind
    (Activity.makes_lift (asks (directoryToEnter_isOfPlaces _ _))) fun directory => ?_
  refine Activity.Makes.bind
    (Activity.makes_lift (asks currentDirectory_isOfPlaces)) fun before => ?_
  refine Activity.Makes.bind (Activity.makes_lift (Action.makes_ask rfl)) fun answer => ?_
  cases answer with
  | error fault => exact Activity.makes_throw rfl
  | ok _ =>
      refine Activity.Makes.bind (Activity.makes_set _) fun _ => ?_
      refine Activity.Makes.bind
        (Activity.makes_lift (asks currentDirectory_isOfPlaces)) fun now => ?_
      exact Activity.makes_lift (Action.write_isOfBuiltins _ _)

/-- A builtin starts nothing and opens nothing, whatever its arguments say. -/
theorem run_isOfBuiltins (builtin : Builtin) (arguments : List String) (outlet : Outlet) :
    (builtin.run arguments outlet).IsOfBuiltins := by
  apply Builtin.run_cases builtin arguments outlet
  case fails => exact fun _ => Activity.makes_throw rfl
  case exits => exact Session.exit_isOfBuiltins outlet
  case foregrounds => exact fun wanted => Session.bringToForeground_isOfBuiltins wanted outlet
  case plain =>
    intro other plain operand
    cases other with
    | bglist =>
        exact Activity.Makes.get_bind fun session =>
          Activity.makes_lift (listJobs_isOfBuiltins outlet session.jobs.entries)
    | cd => exact changeDirectory_isOfBuiltins operand outlet
    | estatus =>
        exact Activity.Makes.get_bind fun session =>
          Activity.makes_lift (Action.write_isOfBuiltins outlet _)
    | exit => cases plain
    | fg => cases plain

private theorem run_isSound (builtin : Builtin) (arguments : List String) (outlet : Outlet) :
    (builtin.run arguments outlet).IsSound :=
  (run_isOfBuiltins builtin arguments outlet).mono Call.isOfInput_of_isOfBuiltins
    fun _ sound => sound

end Builtin

/-! ## Jobs -/

/-- An entry can be made of any processes but none. -/
theorem Entry.ofProcesses_eq_ok (job : Job) {processes : List Pid} (some_process : processes ≠ [])
    (started : Moment) : ∃ entry, Entry.ofProcesses job processes started = .ok entry := by
  unfold Entry.ofProcesses
  rw [List.getLast?_eq_some_getLast some_process]
  exact ⟨_, rfl⟩

namespace Session

private theorem register_isSound (job : Job) (steps : List StartedStep) :
    (register job steps).IsSound := by
  unfold register
  by_cases empty : (steps.filterMap StartedStep.pid?).isEmpty = true
  · simp only [empty, if_true]
    exact Activity.makes_pure ()
  · simp only [empty, Bool.false_eq_true, if_false]
    refine Activity.Makes.bind (Activity.makes_lift (Action.makes_ask rfl)) fun moment => ?_
    have some_process : steps.filterMap StartedStep.pid? ≠ [] := fun none =>
      empty (List.isEmpty_iff.2 none)
    obtain ⟨entry, made⟩ := Entry.ofProcesses_eq_ok job some_process moment
    unfold entryOf
    rw [made]
    refine Activity.Makes.get_bind fun session => ?_
    split
    · refine Activity.Makes.bind (Activity.makes_lift (stopProcesses_isSound _)) fun _ => ?_
      exact Activity.fail_isSound _
    · refine Activity.Makes.bind (Activity.makes_set _) fun _ => ?_
      split
      · exact Activity.makes_lift (Action.notice_isSound _ _)
      · exact Activity.makes_pure ()

private theorem runProgramJob_isSound (job : Job) : (runProgramJob job).IsSound := by
  refine Activity.Makes.get_bind fun session => ?_
  split
  · exact Activity.fail_isSound _
  · have streams := (streamsOf_isOfFiles job).isSound Call.isOfInput_of_isOfFiles
    refine Activity.Makes.bind (Activity.makes_lift streams) fun streams => ?_
    refine Activity.Makes.bind
      (Activity.makes_lift (startSteps_isSound job streams)) fun steps => ?_
    split
    · exact register_isSound job steps
    · refine Activity.makes_lift_bind (waitForAll_isSound steps) fun ⟨waited, _⟩ sound => ?_
      cases waited with
      | error stop => exact Activity.makes_throw (sound stop rfl)
      | ok status => exact recordStatus_makes status

private theorem runJob_isSound (job : Job) : (runJob job).IsSound := by
  unfold runJob
  split
  · exact Builtin.run_isSound _ _ _
  · exact runProgramJob_isSound job

end Session

/-! ## Lines -/

namespace Job

/-- A step that is ended is in the draft. -/
theorem Reading.steps_ne_nil_of_finishStep? {reading finished : Reading}
    (ended : reading.finishStep? = some finished) : finished.draft.steps ≠ [] := by
  unfold finishStep? at ended
  split at ended
  · cases ended
  · cases ended
    simp

/-- What is read to its end has a step. -/
theorem Reading.steps_ne_nil_of_take? {reading finished : Reading} {tokens : List Token}
    (taken : reading.take? tokens = some finished) : finished.draft.steps ≠ [] := by
  fun_induction Reading.take? reading tokens with
  | case1 reading => exact steps_ne_nil_of_finishStep? taken
  | case3 reading rest inductionHypothesis =>
      rw [Option.bind_eq_some_iff] at taken
      obtain ⟨next, -, later⟩ := taken
      exact inductionHypothesis next later
  | case8 => cases taken
  | case2 | case4 | case5 | case6 | case7 => exact ‹_ → _› taken

private theorem parse_isSound {line : String} {stop : Stop} (refused : parse line = .error stop) :
    stop.isSound = true := by
  unfold parse at refused
  dsimp only at refused
  split at refused
  · cases refused
  · split at refused
    · cases refused
      rfl
    · rename_i reading taken
      unfold JobDraft.complete at refused
      cases steps : reading.draft.steps with
      | nil => exact absurd steps (Reading.steps_ne_nil_of_take? taken)
      | cons first rest => simp [steps] at refused

end Job

/-- Whether a stop ends a session: a fatal failure does, and a notice that could not be written. -/
def Stop.isFinal : Stop → Bool
  | .failure reason => reason.isFatal
  | .breach (.noticeLost _ _) => true
  | .breach _ => false

/-- Telling of a failure only writes, and what is not told ends the session. -/
theorem Activity.settle_makes {allowed : Call → Prop}
    (allow : ∀ text, allowed (.write .errors text))
    {outcome : Except Stop Unit}
    (sound : ∀ stop, outcome = .error stop → stop.isSound = true) :
    (settle outcome).Makes allowed fun stop => stop.isFinal = true := by
  cases outcome with
  | ok result => exact makes_pure result
  | error stop =>
      cases stop with
      | failure failure =>
          by_cases fatal : failure.isFatal = true
          · have throws : settle (.error (.failure failure)) = throw (.failure failure) :=
              if_pos fatal
            have final : (Stop.failure failure).isFinal = true := fatal
            rw [throws]
            exact makes_throw final
          · have tells : settle (.error (.failure failure)) =
                ofAction (Action.complain failure) := if_neg fatal
            rw [tells]
            exact makes_lift (Action.notice_makes (allow _) fun _ => rfl)
      | breach breach =>
          have kept := sound (.breach breach) rfl
          have final : (Stop.breach breach).isFinal = true := by
            cases breach with
            | noticeLost outlet reason => rfl
            | jobWithoutSteps => cases kept
            | entryWithoutProcesses => cases kept
          exact makes_throw final

/-- When its failures are told, a sound activity stops only with the session. -/
theorem Activity.Makes.report {allowed : Call → Prop} {activity : Activity Unit}
    (sound : activity.Makes allowed fun stop => stop.isSound = true)
    (allow : ∀ text, allowed (.write .errors text)) :
    (Activity.report activity).Makes allowed fun stop => stop.isFinal = true := by
  intro session
  rw [Activity.perform_report]
  apply Program.Within.bind (sound session)
  intro ⟨outcome, changed⟩ soundStop
  exact Activity.settle_makes allow soundStop changed

namespace Session

private theorem runParsed_isSound {parsed : Except Stop (Option Job)}
    (sound : ∀ stop, parsed = .error stop → stop.isSound = true) : (runParsed parsed).IsSound := by
  cases parsed with
  | error stop => exact Activity.makes_throw (sound stop rfl)
  | ok job =>
      cases job with
      | none => exact Activity.makes_pure ()
      | some job => exact runJob_isSound job

/-- A line asks for no input, and stops only with the session. -/
theorem runLine_makes (line : String) :
    (runLine line).Makes (fun call => call.isOfInput = false) fun stop => stop.isFinal = true :=
  (runParsed_isSound fun _ refused => Job.parse_isSound refused).report fun _ => rfl

/-- A line that asks for a builtin is run as the builtin with its arguments, whatever else it
says. -/
theorem runLine_of_builtin {line : String} {job : Job} {builtin : Builtin}
    (asked : Job.parse line = .ok (some job)) (named : Builtin.ofName? job.program = some builtin) :
    runLine line = Activity.report (builtin.run job.first.arguments .output) := by
  rw [runLine, asked, runParsed, runJob, named]

/-- A line that asks for a builtin makes the calls of builtins only. -/
theorem runLine_makes_ofBuiltins {line : String} {job : Job} {builtin : Builtin}
    (asked : Job.parse line = .ok (some job)) (named : Builtin.ofName? job.program = some builtin) :
    (runLine line).Makes
    (fun call => call.isOfBuiltins = true) fun stop => stop.isFinal = true := by
  rw [runLine_of_builtin asked named]
  exact (builtin.run_isOfBuiltins _ _).report fun _ => rfl

theorem processSignals_makes :
    (Activity.report processSignals).Makes (fun call => call.isOfInput = false)
      fun stop => stop.isFinal = true :=
  processSignals_isSound.report fun _ => rfl

end Session

end JobControl
