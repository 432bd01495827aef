import JobControl.Proofs.Ledger.Deeds
import JobControl.Proofs.RefusedLines
/-!
# What a run of a job leaves of the session

Whatever the world answers, a job that is no builtin changes nothing of the session, or one thing:
it records the status of a foreground job, or it registers a background job.  A builtin changes
what it is there for.
-/

namespace JobControl

open World

variable {σ : Type} {world : World σ}

/-! ## Changing the directory -/

/-- The directory that has been entered is named, and its name is written as it is shown. -/
def Builtin.tellDirectory (outlet : Outlet) : Action Unit := do
  let now ← Builtin.currentDirectory
  Action.write outlet (now.shown ++ "\n")

/-- What comes of changing the directory, and what the session is then. -/
inductive EntersDirectory (world : World σ) (operand : Option String) (outlet : Outlet)
    (session : Session) (state : σ) : Except Stop Unit → Session → σ → Prop
  /-- It is not known where to go. -/
  | unknown {stop : Stop} {after : σ} :
      world.Comes (Builtin.directoryToEnter session.previousDirectory operand).run state
        (.error stop) after →
      EntersDirectory world operand outlet session state (.error stop) session after
  /-- The directory that would be left has no name. -/
  | unnamed {path : RawText} {stop : Stop} {chosen after : σ} :
      world.Comes (Builtin.directoryToEnter session.previousDirectory operand).run state
        (.ok path) chosen →
      world.Comes Builtin.currentDirectory.run chosen (.error stop) after →
      EntersDirectory world operand outlet session state (.error stop) session after
  | refused {path before : RawText} {fault : AccessFault} {chosen known after : σ} :
      world.Comes (Builtin.directoryToEnter session.previousDirectory operand).run state
        (.ok path) chosen →
      world.Comes Builtin.currentDirectory.run chosen (.ok before) known →
      world.Comes (Program.ask (.changeDirectory path)) known (.error fault) after →
      EntersDirectory world operand outlet session state
        (.error (.failure (.directoryChange path.shown))) session after
  | entered {path before : RawText} {outcome : Except Stop Unit}
      {chosen known asked answered after : σ} :
      world.Comes (Builtin.directoryToEnter session.previousDirectory operand).run state
        (.ok path) chosen →
      world.Comes Builtin.currentDirectory.run chosen (.ok before) known →
      world.Drifts known asked →
      world.answers (.changeDirectory path) asked (.ok ()) answered →
      world.Comes (Builtin.tellDirectory outlet).run answered outcome after →
      EntersDirectory world operand outlet session state outcome
        { session with previousDirectory := some before } after

private theorem performs_lift_bind_lift {α β : Type} {action : Action α} {next : α → Action β}
    {before after : Session × σ} {outcome : Except Stop β}
    (run : world.Performs ((liftM action : Activity α) >>= fun result => liftM (next result)) before
      outcome after) :
    after.1 = before.1 ∧ world.Comes (action >>= next).run before.2 outcome after.2 := by
  obtain ⟨result, middle, first, later⟩ | ⟨stop, rfl, first⟩ := performs_bind_iff.1 run
  · obtain ⟨still, first⟩ := performs_lift_iff.1 first
    obtain ⟨unchanged, later⟩ := performs_lift_iff.1 later
    exact ⟨unchanged.trans still, comes_run_bind_iff.2 (.inl ⟨result, middle.2, first, later⟩)⟩
  · obtain ⟨still, first⟩ := performs_lift_iff.1 first
    exact ⟨still, comes_run_bind_iff.2 (.inr ⟨stop, rfl, first⟩)⟩

theorem performs_changeDirectory {operand : Option String} {outlet : Outlet}
    {before after : Session × σ} {outcome : Except Stop Unit}
    (run : world.Performs (Builtin.changeDirectory operand outlet) before outcome after) :
    EntersDirectory world operand outlet before.1 before.2 outcome after.1 after.2 := by
  obtain ⟨changed, last⟩ := after
  rw [Builtin.changeDirectory, performs_get_bind_iff] at run
  obtain ⟨path, chosen, chooses, later⟩ | ⟨stop, rfl, chooses⟩ := performs_bind_iff.1 run
  · obtain ⟨still, chooses⟩ := performs_lift_iff.1 chooses
    obtain ⟨name, known, names, later⟩ | ⟨stop, rfl, names⟩ := performs_bind_iff.1 later
    · obtain ⟨unchanged, names⟩ := performs_lift_iff.1 names
      obtain ⟨asked, given, answered, drift, answers, later⟩ := performs_ask_bind_iff.1 later
      cases given with
      | error fault =>
          obtain ⟨same, drifts⟩ := comes_done_iff.1 later
          cases same
          rw [unchanged, still]
          exact .refused chooses names
            (comes_step_iff.2 ⟨_, _, _, drift, answers, comes_done_iff.2 ⟨rfl, drifts⟩⟩)
      | ok _ =>
          dsimp only at later
          rw [performs_set_bind_iff] at later
          obtain ⟨same, tells⟩ := performs_lift_bind_lift later
          cases same
          rw [unchanged, still] at *
          exact .entered chooses names drift answers tells
    · obtain ⟨unchanged, names⟩ := performs_lift_iff.1 names
      rw [still] at unchanged
      cases unchanged
      exact .unnamed chooses names
  · obtain ⟨unchanged, chooses⟩ := performs_lift_iff.1 chooses
    cases unchanged
    exact .unknown chooses

/-! ## Jobs that are no builtins -/

/-- What is left of a session that has run a job that is no builtin. -/
inductive ProgramLeaves (job : Job) (session : Session) : Except Stop Unit → Session → Prop where
  | unchanged {outcome : Except Stop Unit} : ProgramLeaves job session outcome session
  | waited (status : Option Int) (foreground : job.background = false) :
      ProgramLeaves job session (.ok ())
        { session with lastStatus := status.or session.lastStatus }
  | registered (entry : Entry) {outcome : Except Stop Unit} (background : job.background = true)
      (ofJob : entry.job = job) :
      ProgramLeaves job session outcome
        { session with jobs := { session.jobs with entries := session.jobs.entries ++ [entry] } }

private theorem job_of_entryOf {job : Job} {pids : List Pid} {failed : Option Int} {moment : Moment}
    {entry : Entry} (made : Session.entryOf job pids failed moment = .ok entry) :
    entry.job = job := by
  unfold Session.entryOf Entry.ofProcesses at made
  cases last : pids.getLast? with
  | none =>
      rw [last] at made
      cases made
  | some pid =>
      rw [last] at made
      cases made
      cases failed <;> rfl

section Programs

variable {job : Job} {session : Session} {state : σ}

private theorem register_leaves (background : job.background = true) (steps : List StartedStep) :
    world.Achieves (fun _ _ => True) (Session.register job steps) session
      (fun outcome changed _ => ProgramLeaves job session outcome changed) state := by
  unfold Session.register
  dsimp only
  split
  · exact .unchanged
  · rw [achieves_bind, achieves_lift]
    refine (ensures_later _ state).mono ?_
    rintro (stop | moment) told -
    · exact .unchanged
    · rw [afterActivity_ok]
      cases made : Session.entryOf job (steps.filterMap StartedStep.pid?)
          (Session.failedLastStep steps) moment with
      | error breach => exact .unchanged
      | ok entry =>
          dsimp only
          rw [achieves_bind, achieves_get, afterActivity_ok]
          cases inserted : session.jobs.insert entry with
          | error failure =>
              dsimp only
              rw [achieves_bind, achieves_lift]
              refine (ensures_later _ told).mono ?_
              rintro (stop | _) stopped - <;> exact .unchanged
          | ok jobs =>
              obtain ⟨-, rfl⟩ := Registry.insert_eq_ok inserted
              have registers (outcome : Except Stop Unit) : ProgramLeaves job session outcome
                  { session with
                    jobs := { session.jobs with entries := session.jobs.entries ++ [entry] } } :=
                .registered entry background (job_of_entryOf made)
              dsimp only
              rw [achieves_bind, achieves_set, afterActivity_ok]
              split
              · rw [achieves_lift]
                exact (ensures_later _ told).mono fun _ _ _ => registers _
              · exact registers _

private theorem runProgramJob_leaves (job : Job) :
    world.Achieves (fun _ _ => True) (Session.runProgramJob job) session
      (fun outcome changed _ => ProgramLeaves job session outcome changed) state := by
  unfold Session.runProgramJob
  rw [achieves_bind, achieves_get, afterActivity_ok]
  split
  · exact .unchanged
  · rw [achieves_bind, achieves_lift]
    refine (ensures_later _ state).mono ?_
    rintro (stop | streams) opened -
    · exact .unchanged
    · rw [afterActivity_ok, achieves_bind, achieves_lift]
      refine (ensures_later _ opened).mono ?_
      rintro (stop | steps) started -
      · exact .unchanged
      · rw [afterActivity_ok]
        cases background : job.background with
        | true => exact register_leaves background steps
        | false =>
            rw [if_neg Bool.false_ne_true, achieves_bind, achieves_lift]
            refine (ensures_later _ started).mono ?_
            rintro (stop | ⟨stop | status, others⟩) waited -
            · exact .unchanged
            · exact .unchanged
            · cases status with
              | none => exact .waited none background
              | some status => exact .waited (some status) background

theorem performs_runProgramJob {before after : Session × σ} {outcome : Except Stop Unit}
    (run : world.Performs (Session.runProgramJob job) before outcome after) :
    ProgramLeaves job before.1 outcome after.1 := by
  obtain ⟨-, -, leaves⟩ := (runProgramJob_leaves job).result run
  exact leaves

end Programs

/-! ## All jobs -/

/-- What a job is run as, and what comes of it. -/
inductive JobRuns (world : World σ) (job : Job) (before : Session × σ) (outcome : Except Stop Unit)
    (after : Session × σ) : Prop where
  | program (outside : Builtin.ofName? job.program = none)
      (run : world.Performs (Session.runProgramJob job) before outcome after)
  /-- A builtin is refused its arguments, or lists the jobs or tells the status. -/
  | looks (inside : (Builtin.ofName? job.program).isSome) (unchanged : after.1 = before.1)
  | enters {operand : Option String} (named : Builtin.ofName? job.program = some .cd)
      (enters : EntersDirectory world operand .output before.1 before.2 outcome after.1 after.2)
  | takes {wanted : Option Pid} (named : Builtin.ofName? job.program = some .fg)
      (deed : job.deed = .takes wanted .output)
      (run : world.Performs (Session.bringToForeground wanted .output) before outcome after)
  | ends (named : Builtin.ofName? job.program = some .exit) (deed : job.deed = .ends .output)
      (ends : EndsSession world .output before.1 before.2 outcome after.1 after.2)

theorem performs_runJob {job : Job} {before after : Session × σ} {outcome : Except Stop Unit}
    (run : world.Performs (Session.runJob job) before outcome after) :
    JobRuns world job before outcome after := by
  unfold Session.runJob at run
  cases named : Builtin.ofName? job.program with
  | none =>
      rw [named] at run
      exact .program named run
  | some builtin =>
      have inside : (Builtin.ofName? job.program).isSome := by simp [named]
      have deed : job.deed = builtin.deed job.first.arguments .output := by
        unfold Job.deed
        rw [named]
      rw [named] at run
      dsimp only at run
      unfold Builtin.run at run
      unfold Builtin.deed at deed
      cases given : builtin.operand? job.first.arguments with
      | error failure =>
          rw [given] at run
          obtain ⟨same, -⟩ := comes_done_iff.1 run
          exact .looks inside (Prod.mk.inj same).2
      | ok operand =>
          rw [given] at run deed
          dsimp only at run deed
          cases builtin with
          | bglist => exact .looks inside (performs_lift_iff.1 (performs_get_bind_iff.1 run)).1
          | cd => exact .enters named (performs_changeDirectory run)
          | estatus => exact .looks inside (performs_lift_iff.1 (performs_get_bind_iff.1 run)).1
          | exit => exact .ends named deed (performs_exit_cases run)
          | fg =>
              cases operand with
              | none => exact .takes named deed run
              | some text =>
                  unfold Builtin.runWith at run
                  unfold Builtin.deedWith at deed
                  dsimp only at run deed
                  cases read : Builtin.readPid text with
                  | error failure =>
                      rw [read] at run
                      obtain ⟨same, -⟩ := comes_done_iff.1 run
                      exact .looks inside (Prod.mk.inj same).2
                  | ok pid =>
                      rw [read] at run deed
                      exact .takes named deed run

theorem JobRuns.previousDirectory {job : Job} {before after : Session × σ}
    {outcome : Except Stop Unit} (runs : JobRuns world job before outcome after) :
    after.1.previousDirectory = before.1.previousDirectory ∨
      Builtin.ofName? job.program = some .cd ∧ ∃ operand,
        EntersDirectory world operand .output before.1 before.2 outcome after.1 after.2 := by
  obtain ⟨session, state⟩ := before
  obtain ⟨changed, last⟩ := after
  cases runs with
  | program _ run => cases performs_runProgramJob run <;> exact .inl rfl
  | looks _ unchanged => exact .inl (congrArg Session.previousDirectory unchanged)
  | enters named enters => exact .inr ⟨named, _, enters⟩
  | takes _ _ run => cases performs_bringToForeground run <;> exact .inl rfl
  | ends _ _ ends => cases ends <;> exact .inl rfl

/-! ## Acting on signals -/

/-- Acting on signals changes nothing of the session but the registered jobs. -/
theorem Session.processSignals_keeps_others {holds : Session → Prop}
    (kept : ∀ session jobs, holds session → holds { session with jobs := jobs }) :
    processSignals.Keeps (fun _ => True) holds := by
  have tells : tellShutdown.Keeps (fun _ => True) holds := by
    intro session held
    refine (tellShutdown_within session).mono (fun _ _ => trivial) ?_
    intro result ⟨_, same⟩
    rw [same]
    exact held
  refine Activity.Keeps.bind (Activity.keeps_lift (Action.makes_anything _)) fun taken => ?_
  cases taken with
  | false => exact tells
  | true =>
      apply Activity.Keeps.get_bind
      intro session held
      refine Activity.Keeps.bind (Activity.keeps_lift (Action.makes_anything _)) fun reaped => ?_
      refine Activity.Keeps.bind (Activity.keeps_set (kept session reaped.2 held)) fun _ => ?_
      exact Activity.Keeps.bind (Activity.keeps_lift (Action.makes_anything _)) fun _ => tells

/-! ## Lines -/

/-- That failures are told changes nothing of the session. -/
theorem performs_report {activity : Activity Unit} {before after : Session × σ}
    {outcome : Except Stop Unit}
    (run : world.Performs (Activity.report activity) before outcome after) :
    ∃ inner middle, world.Performs activity before inner (after.1, middle) ∧
      (inner = .ok () → world.Drifts middle after.2) := by
  unfold World.Performs at run
  rw [Activity.perform_report, comes_bind_iff] at run
  obtain ⟨⟨inner, changed⟩, middle, first, settles⟩ := run
  refine ⟨inner, middle, ?_⟩
  have settled : world.Performs (Activity.settle inner) (changed, middle) outcome after := settles
  have unchanged : after.1 = changed ∧ (inner = .ok () → world.Drifts middle after.2) := by
    cases inner with
    | ok _ =>
        obtain ⟨-, same, drift⟩ := performs_pure_iff.1 settled
        exact ⟨same, fun _ => drift⟩
    | error stop =>
        refine ⟨?_, fun equal => nomatch equal⟩
        cases stop with
        | breach breach => exact (Prod.mk.inj (comes_done_iff.1 settled).1).2
        | failure failure =>
            dsimp only [Activity.settle] at settled
            by_cases fatal : failure.isFatal = true
            · rw [if_pos fatal] at settled
              exact (Prod.mk.inj (comes_done_iff.1 settled).1).2
            · rw [if_neg fatal] at settled
              have complains : world.Performs (liftM (Action.complain failure)) (changed, middle)
                  outcome after := settled
              exact (performs_lift_iff.1 complains).1
  obtain ⟨rfl, drifts⟩ := unchanged
  exact ⟨first, drifts⟩

/-- A line changes nothing, or its job is run and the session is left as the job leaves it; when the
job is done so is the line. -/
theorem performs_runLine {line : String} {before after : Session × σ} {outcome : Except Stop Unit}
    (run : world.Performs (Session.runLine line) before outcome after) :
    after.1 = before.1 ∨ ∃ job inner middle, Job.parse line = .ok (some job) ∧
      world.Performs (Session.runJob job) before inner (after.1, middle) ∧
      (inner = .ok () → world.Drifts middle after.2) := by
  obtain ⟨inner, middle, first, drifts⟩ := performs_report run
  cases parsed : Job.parse line with
  | error stop =>
      rw [parsed] at first
      exact .inl (Prod.mk.inj (comes_done_iff.1 first).1).2
  | ok asked =>
      rw [parsed] at first
      cases asked with
      | none => exact .inl (performs_pure_iff.1 first).2.1
      | some job => exact .inr ⟨job, inner, middle, rfl, first, drifts⟩

end JobControl
