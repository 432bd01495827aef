import JobControl.Proofs.Calls
/-!
# What activities keep of a session

An activity keeps a condition on the session if each of its steps does, whatever answers are given
to its calls.  Most builtins make plain calls only and leave the registry as it is.
-/

namespace JobControl

namespace Activity

variable {α β : Type} {allowed : Call → Prop} {holds : Session → Prop}

theorem perform_get_bind (next : Session → Activity β) (session : Session) :
    (get >>= next).perform session = (next session).perform session :=
  rfl

/-- Every call of an activity is allowed, and it keeps a condition on the session. -/
def Keeps (allowed : Call → Prop) (holds : Session → Prop) (activity : Activity α) : Prop :=
  ∀ session, holds session →
    Program.Within allowed (fun result => holds result.2) (activity.perform session)

private theorem keeps_pure (result : α) : (pure result : Activity α).Keeps allowed holds :=
  fun _ held => held

theorem keeps_throw (stop : Stop) : (throw stop : Activity α).Keeps allowed holds :=
  fun _ held => held

theorem keeps_lift {stops : Stop → Prop} {action : Action α}
    (makes : action.Makes allowed stops) :
    (liftM action : Activity α).Keeps allowed holds := by
  intro session held
  exact Program.Within.bind makes fun _ _ => held

theorem keeps_set {changed : Session} (held : holds changed) :
    (set changed : Activity PUnit).Keeps allowed holds :=
  fun _ _ => held

theorem keeps_modify {change : Session → Session}
    (kept : ∀ session, holds session → holds (change session)) :
    (modify change : Activity PUnit).Keeps allowed holds :=
  kept

theorem Keeps.bind {activity : Activity α} {next : α → Activity β}
    (first : activity.Keeps allowed holds) (others : ∀ result, (next result).Keeps allowed holds) :
    (activity >>= next).Keeps allowed holds := by
  intro session held
  unfold perform
  rw [ExceptT.run_bind, StateT.run_bind]
  apply Program.Within.bind (first session held)
  intro ⟨outcome, changed⟩ kept
  cases outcome with
  | ok result => exact others result changed kept
  | error stop => exact kept

theorem Keeps.get_bind {next : Session → Activity β}
    (others : ∀ session, holds session → (next session).Keeps allowed holds) :
    (get >>= next).Keeps allowed holds :=
  fun session held => others session held session held

/-- What follows a program may rely on what is said of its result. -/
theorem Keeps.lift_bind {program : Program α} {good : α → Prop} {next : α → Activity β}
    (within : program.Within allowed good)
    (others : ∀ result, good result → (next result).Keeps allowed holds) :
    ((liftM (liftM program : Action α) : Activity α) >>= next).Keeps allowed holds := by
  intro session held
  have lifted : Program.Within allowed
      (fun result => ∃ value, result = (Except.ok value, session) ∧ good value)
      ((liftM (liftM program : Action α) : Activity α).perform session) := by
    refine Program.Within.bind (Program.Within.bind within fun value fine => ?_) fun _ told => told
    exact ⟨value, rfl, fine⟩
  unfold perform
  rw [ExceptT.run_bind, StateT.run_bind]
  apply Program.Within.bind lifted
  intro _ ⟨value, same, fine⟩
  rw [same]
  exact others value fine session held

/-- What an activity keeps, it keeps in every world. -/
theorem Keeps.achieves {σ : Type} {world : World σ} {activity : Activity α} {session : Session}
    (keeps : activity.Keeps allowed holds) (held : holds session) (state : σ) :
    world.Achieves (fun _ _ => True) activity session (fun _ changed _ => holds changed) state :=
  (keeps session held).result_good state

end Activity

/-- What a program does is of no account where nothing is asked of its calls. -/
theorem Program.only_anything {α : Type} (program : Program α) :
    program.Only fun _ => True := by
  induction program with
  | done result => exact trivial
  | step call next inductionHypothesis => exact ⟨trivial, inductionHypothesis⟩

theorem Action.makes_anything {α : Type} (action : Action α) :
    action.Makes (fun _ => True) fun _ => True :=
  (Program.only_anything action.run).mono (fun _ allowed => allowed) fun _ _ _ _ => trivial

theorem Activity.keeps_recordStatus {allowed : Call → Prop} {holds : Session → Prop}
    (kept : ∀ session status, holds session → holds { session with lastStatus := status })
    (status : Option Int) : (Session.recordStatus status).Keeps allowed holds := by
  cases status with
  | none => exact keeps_pure ()
  | some known => exact keeps_modify fun session held => kept session (some known) held

/-! ## Builtins -/

/-- Whether a builtin does nothing about background jobs. -/
def Builtin.isPlain : Builtin → Bool
  | .exit | .fg => false
  | _ => true

/-- Running a builtin is refused, does nothing about background jobs, ends the session or takes a
job to the foreground. -/
theorem Builtin.run_cases {motive : Activity Unit → Prop} (builtin : Builtin)
    (arguments : List String) (outlet : Outlet)
    (fails : ∀ failure : Failure, motive (Activity.fail failure))
    (plain : ∀ other : Builtin, other.isPlain = true →
      ∀ operand, motive (other.runWith operand outlet))
    (exits : motive (Session.exit outlet))
    (foregrounds : ∀ wanted, motive (Session.bringToForeground wanted outlet)) :
    motive (builtin.run arguments outlet) := by
  unfold Builtin.run
  cases builtin.operand? arguments with
  | error failure => exact fails failure
  | ok operand =>
      cases builtin with
      | bglist => exact plain .bglist rfl operand
      | cd => exact plain .cd rfl operand
      | estatus => exact plain .estatus rfl operand
      | exit => exact exits
      | fg =>
          cases operand with
          | none => exact foregrounds none
          | some text =>
              unfold Builtin.runWith
              dsimp only
              cases Builtin.readPid text with
              | ok pid => exact foregrounds (some pid)
              | error failure => exact fails failure

/-- The background jobs are these, and the session has or has not been asked to end. -/
def Session.HasJobs (jobs : Registry) (requested : Bool) (session : Session) : Prop :=
  session.jobs = jobs ∧ session.exitRequested = requested

section Plain

variable {jobs : Registry} {requested : Bool}

private theorem Builtin.changeDirectory_keeps (operand : Option String) (outlet : Outlet) :
    (changeDirectory operand outlet).Keeps (fun call => call.isPlain = true)
      (Session.HasJobs jobs requested) := by
  apply Activity.Keeps.get_bind
  intro session held
  apply Activity.Keeps.bind (Activity.keeps_lift (directoryToEnter_isPlain _ _))
  intro directory
  apply Activity.Keeps.bind (Activity.keeps_lift currentDirectory_isPlain)
  intro before
  apply Activity.Keeps.bind (Activity.keeps_lift (Action.isPlain_ask rfl))
  intro answer
  cases answer with
  | error fault => exact Activity.keeps_throw _
  | ok _ =>
      let changed : Session := { session with previousDirectory := some before }
      have kept : Session.HasJobs jobs requested changed := held
      refine Activity.Keeps.bind (Activity.keeps_set kept) fun _ => ?_
      apply Activity.Keeps.bind (Activity.keeps_lift currentDirectory_isPlain)
      intro now
      exact Activity.keeps_lift (Action.write_isPlain _ _)

theorem Builtin.runWith_keeps {builtin : Builtin} (plain : builtin.isPlain = true)
    (operand : Option String) (outlet : Outlet) :
    (builtin.runWith operand outlet).Keeps (fun call => call.isPlain = true)
      (Session.HasJobs jobs requested) := by
  cases builtin with
  | bglist =>
      exact Activity.Keeps.get_bind fun session _ =>
        Activity.keeps_lift (listJobs_isPlain outlet session.jobs.entries)
  | cd => exact changeDirectory_keeps operand outlet
  | estatus =>
      exact Activity.Keeps.get_bind fun session _ =>
        Activity.keeps_lift (Action.write_isPlain outlet _)
  | exit => cases plain
  | fg => cases plain

theorem Session.tellShutdown_keeps :
    tellShutdown.Keeps (fun call => call.isPlain = true) (HasJobs jobs requested) := by
  apply Activity.Keeps.bind (Activity.keeps_lift (Action.isPlain_ask rfl))
  intro taken
  cases taken with
  | false => exact Activity.keeps_pure ()
  | true =>
      apply Activity.Keeps.bind (Activity.keeps_lift (Action.isPlain_ask rfl))
      intro moment
      exact Activity.keeps_lift (Action.notice_isPlain _ _)

end Plain

end JobControl
