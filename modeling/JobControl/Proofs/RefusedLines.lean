import JobControl.Proofs.InputEnds
/-!
# Lines that are refused

Taking a job to the foreground, and ending a session, take jobs out of the registry first, then
write, and only then do the rest.  When the line is refused in between, the work stays half done:
the job that was to come to the foreground is neither registered nor waited for, and the session
whose jobs have been signalled has not been asked to end.  Where lines are not refused, neither
happens.
-/

namespace JobControl

open World

variable {σ : Type} {world : World σ}

/-- A text is written, and answered so; nothing else is asked. -/
def World.Writes (world : World σ) (outlet : Outlet) (text : String) (before : σ)
    (answer : Except Errno Unit) (after : σ) : Prop :=
  world.Comes (Program.ask (.write outlet text)) before answer after

/-- An action that writes a text fails exactly if the text is refused. -/
theorem comes_write_iff {outlet : Outlet} {text : String} {before after : σ}
    {outcome : Except Stop Unit} :
    world.Comes (Action.write outlet text).run before outcome after ↔
      (outcome = .ok () ∧ world.Writes outlet text before (.ok ()) after) ∨
      ∃ reason, outcome = .error (.failure (.access (.refused reason))) ∧
        world.Writes outlet text before (.error reason) after := by
  have asks : (Action.write outlet text).run =
      Program.ask (.write outlet text) >>= fun answer =>
        .done (answer.mapError fun reason => .failure (.access (.refused reason))) := by
    refine congrArg (Program.step _) (funext fun answer => ?_)
    cases answer <;> rfl
  rw [asks, comes_bind_iff]
  constructor
  · rintro ⟨answer, middle, written, later⟩
    obtain ⟨rfl, drift⟩ := comes_done_iff.1 later
    cases answer with
    | ok result => exact .inl ⟨rfl, written.drifts drift⟩
    | error reason => exact .inr ⟨reason, rfl, written.drifts drift⟩
  · rintro (⟨rfl, written⟩ | ⟨reason, rfl, refused⟩)
    · exact ⟨_, after, written, comes_done_iff.2 ⟨rfl, Relation.ReflTransGen.refl⟩⟩
    · exact ⟨_, after, refused, comes_done_iff.2 ⟨rfl, Relation.ReflTransGen.refl⟩⟩

/-! ## Taking a job to the foreground -/

/-- What comes of taking a job to the foreground, and what the session is then. -/
inductive TakesToForeground (world : World σ) (wanted : Option Pid) (outlet : Outlet)
    (session : Session) (state : σ) : Except Stop Unit → Session → σ → Prop
  /-- There is no such job. -/
  | unknown {failure : Failure} {after : σ} :
      Session.takeJob session.jobs wanted = .error failure →
      world.Drifts state after →
      TakesToForeground world wanted outlet session state (.error (.failure failure)) session after
  /-- The line of the job is refused, and the job is gone. -/
  | refused {entry : Entry} {jobs : Registry} {reason : Errno} {after : σ} :
      Session.takeJob session.jobs wanted = .ok (entry, jobs) →
      world.Writes outlet (entry.job.input ++ "\n") state (.error reason) after →
      TakesToForeground world wanted outlet session state
        (.error (.failure (.access (.refused reason)))) { session with jobs := jobs } after
  /-- A wait for the job fails, which is fatal. -/
  | failed {entry : Entry} {jobs : Registry} {stop : Stop} {written after : σ} :
      Session.takeJob session.jobs wanted = .ok (entry, jobs) →
      world.Writes outlet (entry.job.input ++ "\n") state (.ok ()) written →
      world.Comes entry.wait.run written (.error stop) after →
      stop.isFatal = true →
      TakesToForeground world wanted outlet session state (.error stop)
        { session with jobs := jobs } after
  | waited {entry : Entry} {jobs : Registry} {status : Option Int} {written after : σ} :
      Session.takeJob session.jobs wanted = .ok (entry, jobs) →
      world.Writes outlet (entry.job.input ++ "\n") state (.ok ()) written →
      world.Comes entry.wait.run written (.ok status) after →
      TakesToForeground world wanted outlet session state (.ok ())
        { session with jobs := jobs, lastStatus := status.or session.lastStatus } after

private theorem performs_recordStatus {status : Option Int} {before after : Session × σ}
    {outcome : Except Stop Unit}
    (run : world.Performs (Session.recordStatus status) before outcome after) :
    outcome = .ok () ∧
      after.1 = { before.1 with lastStatus := status.or before.1.lastStatus } ∧
      world.Drifts before.2 after.2 := by
  cases status with
  | none => exact performs_pure_iff.1 run
  | some status => exact performs_modify_iff.1 run

private theorem isFatal_of_wait {entry : Entry} {before after : σ} {stop : Stop}
    (run : world.Comes entry.wait.run before (.error stop) after) : stop.isFatal = true := by
  have makes : entry.wait.Makes (fun _ => True) fun stop => stop.isFatal = true :=
    waitForProcesses_makes (by trivial) (fun _ => trivial) (fun _ => rfl) _ _ _
  obtain ⟨-, -, good⟩ := (makes.result_good before).result run
  exact good stop rfl

theorem performs_bringToForeground {wanted : Option Pid} {outlet : Outlet}
    {before after : Session × σ} {outcome : Except Stop Unit}
    (run : world.Performs (Session.bringToForeground wanted outlet) before outcome after) :
    TakesToForeground world wanted outlet before.1 before.2 outcome after.1 after.2 := by
  obtain ⟨changed, last⟩ := after
  rw [Session.bringToForeground, performs_get_bind_iff] at run
  cases taken : Session.takeJob before.1.jobs wanted with
  | error failure =>
      rw [taken] at run
      obtain ⟨same, drift⟩ := comes_done_iff.1 run
      cases same
      exact .unknown taken drift
  | ok found =>
      obtain ⟨entry, jobs⟩ := found
      rw [taken] at run
      dsimp only at run
      rw [performs_set_bind_iff] at run
      obtain ⟨⟨⟩, written, wrote, later⟩ | ⟨stop, rfl, wrote⟩ := performs_bind_iff.1 run
      · obtain ⟨unchanged, wrote⟩ := performs_lift_iff.1 wrote
        obtain ⟨-, accepted⟩ | ⟨reason, broken, -⟩ := comes_write_iff.1 wrote
        · obtain ⟨status, waited, waits, later⟩ | ⟨stop, rfl, waits⟩ := performs_bind_iff.1 later
          · obtain ⟨still, waits⟩ := performs_lift_iff.1 waits
            obtain ⟨rfl, recorded, drift⟩ := performs_recordStatus later
            rw [still, unchanged] at recorded
            cases recorded
            exact .waited taken accepted (waits.drifts drift)
          · obtain ⟨still, waits⟩ := performs_lift_iff.1 waits
            rw [unchanged] at still
            cases still
            exact .failed taken accepted waits (isFatal_of_wait waits)
        · cases broken
      · obtain ⟨unchanged, wrote⟩ := performs_lift_iff.1 wrote
        cases unchanged
        obtain ⟨broken, -⟩ | ⟨reason, same, refused⟩ := comes_write_iff.1 wrote
        · cases broken
        · cases same
          exact .refused taken refused

/-! ## Ending a session -/

/-- What comes of ending a session, and what the session is then. -/
inductive EndsSession (world : World σ) (outlet : Outlet) (session : Session) (state : σ) :
    Except Stop Unit → Session → σ → Prop
  | ended {signalled after : σ} :
      world.Comes (Session.signalJobs session.jobs.entries) state () signalled →
      world.Comes (Session.announceTerminated outlet session.jobs.entries).run signalled (.ok ())
        after →
      EndsSession world outlet session state (.ok ())
        { session with jobs := { session.jobs with entries := [] }, exitRequested := true } after
  /-- The line of a job is refused: all jobs have been signalled and are gone, and the session goes
  on. -/
  | refused {told left : List Entry} {entry : Entry} {reason : Errno}
      {signalled reached after : σ} :
      session.jobs.entries = told ++ entry :: left →
      world.Comes (Session.signalJobs session.jobs.entries) state () signalled →
      world.Comes (Session.announceTerminated outlet told).run signalled (.ok ()) reached →
      world.Writes outlet (Session.jobNotice entry "Terminated") reached (.error reason) after →
      EndsSession world outlet session state (.error (.failure (.access (.refused reason))))
        { session with jobs := { session.jobs with entries := [] } } after

/-- Jobs are told of in turn until a line is refused. -/
theorem comes_announceTerminated {outlet : Outlet} {entries : List Entry} {before after : σ}
    {outcome : Except Stop Unit}
    (run : world.Comes (Session.announceTerminated outlet entries).run before outcome after) :
    outcome = .ok () ∨
      ∃ told entry left reason reached, entries = told ++ entry :: left ∧
        outcome = .error (.failure (.access (.refused reason))) ∧
        world.Comes (Session.announceTerminated outlet told).run before (.ok ()) reached ∧
        world.Writes outlet (Session.jobNotice entry "Terminated") reached (.error reason)
          after := by
  induction entries generalizing before with
  | nil => exact .inl (comes_done_iff.1 run).1
  | cons entry rest inductionHypothesis =>
      obtain ⟨⟨⟩, middle, wrote, later⟩ | ⟨stop, rfl, wrote⟩ := comes_run_bind_iff.1 run
      · obtain fine | ⟨told, other, left, reason, reached, rfl, same, announced, refused⟩ :=
          inductionHypothesis later
        · exact .inl fine
        · have longer : world.Comes (Session.announceTerminated outlet (entry :: told)).run before
              (.ok ()) reached := comes_run_bind_iff.2 (.inl ⟨(), middle, wrote, announced⟩)
          exact .inr ⟨entry :: told, other, left, reason, reached, rfl, same, longer, refused⟩
      · obtain ⟨broken, -⟩ | ⟨reason, same, refused⟩ := comes_write_iff.1 wrote
        · cases broken
        · cases same
          exact .inr ⟨[], entry, rest, reason, before, rfl, rfl, Relation.ReflTransGen.refl,
            refused⟩

theorem performs_exit_cases {outlet : Outlet} {before after : Session × σ}
    {outcome : Except Stop Unit}
    (run : world.Performs (Session.exit outlet) before outcome after) :
    EndsSession world outlet before.1 before.2 outcome after.1 after.2 := by
  obtain ⟨changed, last⟩ := after
  rw [Session.exit, performs_get_bind_iff] at run
  dsimp only [Registry.drain] at run
  rw [performs_set_bind_iff] at run
  obtain ⟨⟨⟩, signalled, signals, later⟩ | ⟨stop, -, broken⟩ := performs_bind_iff.1 run
  · obtain ⟨unchanged, signals⟩ := performs_lift_iff.1 signals
    obtain ⟨_, -, signals⟩ := comes_lift_iff.1 signals
    obtain ⟨⟨⟩, announced, announces, later⟩ | ⟨stop, rfl, announces⟩ := performs_bind_iff.1 later
    · obtain ⟨still, announces⟩ := performs_lift_iff.1 announces
      obtain ⟨rfl, ended, drift⟩ := performs_modify_iff.1 later
      rw [still, unchanged] at ended
      cases ended
      exact .ended signals (announces.drifts drift)
    · obtain ⟨still, announces⟩ := performs_lift_iff.1 announces
      rw [unchanged] at still
      cases still
      obtain fine | ⟨told, entry, left, reason, reached, split, same, announced, refused⟩ :=
        comes_announceTerminated announces
      · cases fine
      · cases same
        exact .refused split signals announced refused
  · obtain ⟨_, broken, -⟩ := comes_lift_iff.1 (performs_lift_iff.1 broken).2
    cases broken

/-! ## What a refused line costs -/

/-- A job that cannot be taken to the foreground stays where it is, and a session that ends is asked
to, unless a line is refused.  Then the job is gone without having been waited for; and the session
goes on, its jobs signalled and gone. -/
theorem foreground_and_exit_unless_refused (world : World σ) (outlet : Outlet) (session : Session)
    (state : σ) :
    (∀ wanted failure changed after,
      world.Performs (Session.bringToForeground wanted outlet) (session, state)
        (.error (.failure failure)) (changed, after) →
      failure.isFatal = false →
        changed.lastStatus = session.lastStatus ∧
          (changed = session ∨
            ∃ entry reason, Session.takeJob session.jobs wanted = .ok (entry, changed.jobs) ∧
              changed = { session with jobs := changed.jobs } ∧
              world.Writes outlet (entry.job.input ++ "\n") state (.error reason) after)) ∧
    ∀ outcome changed after,
      world.Performs (Session.exit outlet) (session, state) outcome (changed, after) →
        EndsSession world outlet session state outcome changed after := by
  refine ⟨fun wanted failure changed after run slight => ?_, fun _ _ _ => performs_exit_cases⟩
  cases performs_bringToForeground run with
  | unknown => exact ⟨rfl, .inl rfl⟩
  | refused taken written => exact ⟨rfl, .inr ⟨_, _, taken, rfl, written⟩⟩
  | failed _ _ _ fatal => exact absurd (slight.symm.trans fatal) Bool.false_ne_true

/-- The session with its job when nothing can be written. -/
theorem watching_loses_job :
    ∃ after, Kernel.telling.Performs (Session.bringToForeground none .output) (watching, {})
      (.error (.failure (.access (.refused .noSpace)))) ({ watching with jobs := {} }, after) := by
  apply Exists.intro
  exact Leads.answer (.error Errno.noSpace) ⟨_, rfl, rfl⟩ Relation.ReflTransGen.refl

private theorem watching_goes_on :
    ∃ after, Kernel.telling.Performs (Session.exit .output) (watching, {})
      (.error (.failure (.access (.refused .noSpace)))) ({ watching with jobs := {} }, after) := by
  apply Exists.intro
  refine Leads.answer (.ok ()) ⟨_, rfl, rfl⟩ ?_
  exact Leads.answer (.error Errno.noSpace) ⟨_, rfl, rfl⟩ Relation.ReflTransGen.refl

/-- With nothing on its output accepted, the session loses its job, and does not end. -/
theorem foreground_and_exit_of_watching :
    Failure.isFatal (.access (.refused .noSpace)) = false ∧
      (∃ after entry reason, Session.takeJob watching.jobs none = .ok (entry, {}) ∧
        Kernel.telling.Writes .output (entry.job.input ++ "\n") {} (.error reason) after) ∧
      ∃ after, EndsSession Kernel.telling .output watching {}
        (.error (.failure (.access (.refused .noSpace)))) { watching with jobs := {} } after := by
  obtain ⟨after, loses⟩ := watching_loses_job
  obtain ⟨later, goesOn⟩ := watching_goes_on
  have notFatal : Failure.isFatal (.access (.refused .noSpace)) = false := rfl
  obtain ⟨foreground, exit⟩ :=
    foreground_and_exit_unless_refused Kernel.telling .output watching {}
  obtain ⟨-, kept | ⟨entry, reason, taken, -, refused⟩⟩ := foreground _ _ _ _ loses notFatal
  · cases congrArg (fun session => session.jobs.entries) kept
  · exact ⟨notFatal, ⟨after, entry, reason, taken, refused⟩, later, exit _ _ _ goesOn⟩

/-- It is not so that a job which does not come to the foreground is still registered, unless a wait
failed; nor that a session which has signalled its jobs ends. -/
theorem not_always_registered_nor_ended :
    (¬∀ (session changed : Session) (kernel after : Kernel) (wanted : Option Pid) (outlet : Outlet)
        (failure : Failure),
      Kernel.telling.Performs (Session.bringToForeground wanted outlet) (session, kernel)
        (.error (.failure failure)) (changed, after) →
      failure.isFatal = false →
        changed.jobs = session.jobs ∧ changed.lastStatus = session.lastStatus) ∧
    ¬∀ (session changed : Session) (kernel after : Kernel) (outlet : Outlet)
        (outcome : Except Stop Unit),
      Kernel.telling.Performs (Session.exit outlet) (session, kernel) outcome (changed, after) →
        changed.exitRequested = true := by
  refine ⟨fun registered => ?_, fun ends => ?_⟩
  · obtain ⟨after, loses⟩ := watching_loses_job
    cases congrArg Registry.entries (registered _ _ _ _ _ _ _ loses rfl).1
  · obtain ⟨after, goesOn⟩ := watching_goes_on
    cases ends _ _ _ _ _ _ goesOn

end JobControl
