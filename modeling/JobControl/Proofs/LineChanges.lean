import JobControl.Proofs.ForegroundStatus
import JobControl.Proofs.Grammar
import JobControl.Proofs.JobRuns
import JobControl.Proofs.Nameless
import JobControl.Proofs.Promises
/-!
# What a line may change

Most lines leave a session as it is.  The status is changed only by a job that has come to its end
in the foreground, the previous directory only by a change of directory, and that the session ends
is only asked by `exit`; a job is registered only by a line that ends with `&`, and taken out of the
registry only to come to the foreground or because the session ends.  A line that asks for a builtin
starts and opens nothing.

The status that is recorded is that of the last step of the job, with one exception.  A child that
was killed by a signal without a name, and that was collected when the session acted on signals, is
still listed, since nothing could be told of it; a job that lists it, and is fetched when the number
of the child has been given to another one, is left with the status of that one.
-/

namespace JobControl

open World

variable {σ : Type} {world : World σ}

/-! ## Changes -/

/-- A directory that has been entered has a name. -/
def World.NamesEntered (world : World σ) : Prop :=
  ∀ path left entered asked given named,
    world.answers (.changeDirectory path) left (.ok ()) entered → world.Drifts entered asked →
    world.answers .currentDirectory asked given named → ∃ directory, given = .ok directory

/-- An entry is taken out of a list: the first one of a name, or the first one of all.  The others
stay as they are, and in order. -/
inductive Entry.IsTakenOut : Option Pid → List Entry → Entry → List Entry → Prop
  | named {entry : Entry} {before after : List Entry}
      (first : ∀ earlier ∈ before, earlier.pid ≠ entry.pid) :
      IsTakenOut (some entry.pid) (before ++ entry :: after) entry (before ++ after)
  | oldest {entry : Entry} {after : List Entry} : IsTakenOut none (entry :: after) entry after

/-- A job asks for an entry in the foreground, and these entries are left without it. -/
structure Job.Fetches (job : Job) (entries : List Entry) (entry : Entry) (left : List Entry) :
    Prop where
  named : Builtin.ofName? job.program = some .fg
  takenOut : ∃ wanted, job.deed = .takes wanted .output ∧
    Entry.IsTakenOut wanted entries entry left

/-- A line asks for a job, and the job is done. -/
structure Does (world : World σ) (line : String) (job : Job) (before after : Session × σ) :
    Prop where
  asked : Job.parse line = .ok (some job)
  done : world.Performs (Session.runJob job) before (.ok ()) after

/-- The job that a line asks for comes to its end in the foreground, or fetches one that does. -/
structure EndsInForeground (world : World σ) (line : String) (job : Job)
    (before after : Session × σ) : Prop where
  does : Does world line job before after
  ends : Builtin.ofName? job.program = none ∧ job.background = false ∨
    ∃ entry, job.Fetches before.1.jobs.entries entry after.1.jobs.entries

/-- What a line may do to the registered entries. -/
inductive ChangesEntries (line : String) (entries : List Entry) : List Entry → Prop
  | enters {job : Job} (entry : Entry) (asked : Job.parse line = .ok (some job))
      (outside : Builtin.ofName? job.program = none)
      (ampersand : (Token.ofText line).getLast? = some .background) (ofJob : entry.job = job) :
      ChangesEntries line entries (entries ++ [entry])
  | fetches {job : Job} {entry : Entry} {left : List Entry}
      (asked : Job.parse line = .ok (some job)) (fetches : job.Fetches entries entry left) :
      ChangesEntries line entries left
  | clears {job : Job} (asked : Job.parse line = .ok (some job))
      (named : Builtin.ofName? job.program = some .exit) (deed : job.deed = .ends .output) :
      ChangesEntries line entries []

/-- A line changes of a session only what it may change. -/
structure ChangesAsAsked (world : World σ) (line : String) (before after : Session × σ) :
    Prop where
  status : after.1.lastStatus = before.1.lastStatus ∨
    ∃ job, EndsInForeground world line job before after
  directory : after.1.previousDirectory = before.1.previousDirectory ∨
    ∃ job, Does world line job before after ∧ Builtin.ofName? job.program = some .cd
  exit : after.1.exitRequested = before.1.exitRequested ∨
    after.1.exitRequested = true ∧
      ∃ job, Does world line job before after ∧ Builtin.ofName? job.program = some .exit
  entries : after.1.jobs.entries = before.1.jobs.entries ∨
    ChangesEntries line before.1.jobs.entries after.1.jobs.entries
  capacity : after.1.jobs.capacity = before.1.jobs.capacity
  settings : after.1.settings = before.1.settings

/-- The job of a line has come to its end in the foreground, and the status that is left is the one
of its last step: the job is the one that the line says, and was started by the line, or it was
started before and fetched. -/
inductive LeavesLastStatus (endings : Ending → Prop) (line : String)
    (before after : Session × Kernel) : Prop where
  | ran {job : Job} (does : Does (Kernel.world endings) line job before after)
      (outside : Builtin.ofName? job.program = none) (foreground : job.background = false)
      (status : HasLastStatus job before.2.attempts.length after.1 after.2.attempts)
  | fetched {job : Job} {entry : Entry} {start : Nat}
      (does : Does (Kernel.world endings) line job before after)
      (fetches : job.Fetches before.1.jobs.entries entry after.1.jobs.entries)
      (follows : entry.Follows
        (Kernel.slice before.2.attempts start entry.job.steps.length))
      (status : HasLastStatus entry.job start after.1 after.2.attempts)

/-! ## Entries that are taken out -/

private theorem isTakenOut_of_takeJob {registry changed : Registry} {wanted : Option Pid}
    {entry : Entry} (taken : Session.takeJob registry wanted = .ok (entry, changed)) :
    Entry.IsTakenOut wanted registry.entries entry changed.entries ∧
      changed.capacity = registry.capacity := by
  cases wanted with
  | none =>
      obtain ⟨after, split, rfl⟩ := Registry.removeOldest_eq_ok taken
      rw [split]
      exact ⟨.oldest, rfl⟩
  | some pid =>
      obtain ⟨before, after, split, rfl, others, rfl⟩ := Registry.remove_eq_ok taken
      rw [split]
      exact ⟨.named others, rfl⟩

theorem Entry.IsTakenOut.length_eq {wanted : Option Pid} {entries left : List Entry}
    {entry : Entry} (takenOut : Entry.IsTakenOut wanted entries entry left) :
    entries.length = left.length + 1 := by
  cases takenOut with
  | named _ => simp only [List.length_append, List.length_cons, Nat.add_assoc]
  | oldest => rfl

/-- Where an entry is fetched the session does not stay as it was. -/
theorem Job.Fetches.changes {job : Job} {before after : Session} {entry : Entry}
    (fetches : job.Fetches before.jobs.entries entry after.jobs.entries) : after ≠ before := by
  rintro rfl
  obtain ⟨_, -, takenOut⟩ := fetches.takenOut
  exact absurd takenOut.length_eq (Nat.ne_of_lt (Nat.lt_succ_self _))

/-! ## What jobs change -/

/-- Once a directory has been entered it is told, where the output is accepted. -/
theorem tellDirectory_ok (accepts : world.AcceptsOutput) (names : world.NamesEntered)
    {path : RawText} {left entered after : σ} {outcome : Except Stop Unit}
    (enters : world.answers (.changeDirectory path) left (.ok ()) entered)
    (run : world.Comes (Builtin.tellDirectory .output).run entered outcome after) :
    outcome = .ok () := by
  obtain ⟨asked, given, named, drift, answers, later⟩ := comes_step_iff.1 run
  obtain ⟨directory, rfl⟩ := names _ _ _ _ _ _ enters drift answers
  exact accepts.write_ok later

namespace JobRuns

variable {job : Job} {before after : Session × σ} {outcome : Except Stop Unit}

theorem lastStatus (runs : JobRuns world job before outcome after) :
    after.1.lastStatus = before.1.lastStatus ∨
      outcome = .ok () ∧
        (Builtin.ofName? job.program = none ∧ job.background = false ∨
          ∃ entry, job.Fetches before.1.jobs.entries entry after.1.jobs.entries) := by
  obtain ⟨session, state⟩ := before
  obtain ⟨changed, last⟩ := after
  cases runs with
  | program outside run =>
      cases performs_runProgramJob run with
      | unchanged => exact .inl rfl
      | waited status foreground => exact .inr ⟨rfl, .inl ⟨outside, foreground⟩⟩
      | registered => exact .inl rfl
  | looks _ unchanged => exact .inl (congrArg Session.lastStatus unchanged)
  | enters _ enters => cases enters <;> exact .inl rfl
  | takes named deed run =>
      cases performs_bringToForeground run with
      | unknown => exact .inl rfl
      | refused => exact .inl rfl
      | failed => exact .inl rfl
      | waited taken =>
          exact .inr ⟨rfl, .inr ⟨_, named, _, deed, (isTakenOut_of_takeJob taken).1⟩⟩
  | ends _ _ ends => cases ends <;> exact .inl rfl

private theorem enters_ok (accepts : world.AcceptsOutput) (names : world.NamesEntered)
    (runs : JobRuns world job before outcome after) :
    after.1.previousDirectory = before.1.previousDirectory ∨
      outcome = .ok () ∧ Builtin.ofName? job.program = some .cd := by
  obtain same | ⟨named, operand, enters⟩ := runs.previousDirectory
  · exact .inl same
  · obtain ⟨session, state⟩ := before
    obtain ⟨changed, last⟩ := after
    cases enters with
    | unknown => exact .inl rfl
    | unnamed => exact .inl rfl
    | refused => exact .inl rfl
    | entered _ _ _ answers tells =>
        exact .inr ⟨tellDirectory_ok accepts names answers tells, named⟩

theorem exitRequested (runs : JobRuns world job before outcome after) :
    after.1.exitRequested = before.1.exitRequested ∨
      after.1.exitRequested = true ∧ outcome = .ok () ∧
        Builtin.ofName? job.program = some .exit := by
  obtain ⟨session, state⟩ := before
  obtain ⟨changed, last⟩ := after
  cases runs with
  | program _ run => cases performs_runProgramJob run <;> exact .inl rfl
  | looks _ unchanged => exact .inl (congrArg Session.exitRequested unchanged)
  | enters _ enters => cases enters <;> exact .inl rfl
  | takes _ _ run => cases performs_bringToForeground run <;> exact .inl rfl
  | ends named _ ends =>
      cases ends with
      | ended => exact .inr ⟨rfl, rfl, named⟩
      | refused => exact .inl rfl

theorem entries {line : String} (asked : Job.parse line = .ok (some job))
    (runs : JobRuns world job before outcome after) :
    after.1.jobs.entries = before.1.jobs.entries ∨
      ChangesEntries line before.1.jobs.entries after.1.jobs.entries := by
  obtain ⟨session, state⟩ := before
  obtain ⟨changed, last⟩ := after
  cases runs with
  | program outside run =>
      cases performs_runProgramJob run with
      | unchanged => exact .inl rfl
      | waited => exact .inl rfl
      | registered entry background ofJob =>
          have ampersand := (Job.isReadFrom_of_parse asked).2.background.1 background
          exact .inr (.enters entry asked outside ampersand ofJob)
  | looks _ unchanged => exact .inl (congrArg (fun session => session.jobs.entries) unchanged)
  | enters _ enters => cases enters <;> exact .inl rfl
  | takes named deed run =>
      have fetched : ∀ {entry jobs}, Session.takeJob session.jobs _ = .ok (entry, jobs) →
          ChangesEntries line session.jobs.entries jobs.entries := fun taken =>
        .fetches asked ⟨named, _, deed, (isTakenOut_of_takeJob taken).1⟩
      cases performs_bringToForeground run with
      | unknown => exact .inl rfl
      | refused taken => exact .inr (fetched taken)
      | failed taken => exact .inr (fetched taken)
      | waited taken => exact .inr (fetched taken)
  | ends named deed ends => cases ends <;> exact .inr (.clears asked named deed)

private theorem capacity_and_settings (runs : JobRuns world job before outcome after) :
    after.1.jobs.capacity = before.1.jobs.capacity ∧ after.1.settings = before.1.settings := by
  obtain ⟨session, state⟩ := before
  obtain ⟨changed, last⟩ := after
  cases runs with
  | program _ run => cases performs_runProgramJob run <;> exact ⟨rfl, rfl⟩
  | looks _ unchanged =>
      obtain rfl : changed = session := unchanged
      exact ⟨rfl, rfl⟩
  | enters _ enters => cases enters <;> exact ⟨rfl, rfl⟩
  | takes _ _ run =>
      cases performs_bringToForeground run with
      | unknown => exact ⟨rfl, rfl⟩
      | refused taken => exact ⟨(isTakenOut_of_takeJob taken).2, rfl⟩
      | failed taken => exact ⟨(isTakenOut_of_takeJob taken).2, rfl⟩
      | waited taken => exact ⟨(isTakenOut_of_takeJob taken).2, rfl⟩
  | ends _ _ ends => cases ends <;> exact ⟨rfl, rfl⟩

end JobRuns

/-! ## What lines change -/

theorem ChangesAsAsked.of_same {line : String} {before after : Session × σ}
    (same : after.1 = before.1) : ChangesAsAsked world line before after where
  status := .inl (congrArg Session.lastStatus same)
  directory := .inl (congrArg Session.previousDirectory same)
  exit := .inl (congrArg Session.exitRequested same)
  entries := .inl (congrArg (fun session => session.jobs.entries) same)
  capacity := congrArg (fun session => session.jobs.capacity) same
  settings := congrArg Session.settings same

/-- The status is changed only by a job that has come to its end in the foreground. -/
theorem runLine_status {line : String} {before after : Session × σ} {outcome : Except Stop Unit}
    (run : world.Performs (Session.runLine line) before outcome after) :
    after.1.lastStatus = before.1.lastStatus ∨
      ∃ job, EndsInForeground world line job before after := by
  obtain same | ⟨job, inner, middle, asked, first, drifts⟩ := performs_runLine run
  · exact .inl (congrArg Session.lastStatus same)
  · obtain same | ⟨rfl, ends⟩ := (performs_runJob first).lastStatus
    · exact .inl same
    · exact .inr ⟨job, ⟨asked, first.drifts (drifts rfl)⟩, ends⟩

private theorem runLine_changesAsAsked (accepts : world.AcceptsOutput) (names : world.NamesEntered)
    {line : String} {before after : Session × σ} {outcome : Except Stop Unit}
    (run : world.Performs (Session.runLine line) before outcome after) :
    ChangesAsAsked world line before after := by
  obtain same | ⟨job, inner, middle, asked, first, drifts⟩ := performs_runLine run
  · exact .of_same same
  · have runs := performs_runJob first
    -- A failure is told after the job has stopped, so only a job that is done ends with its line.
    have does (fine : inner = .ok ()) : Does world line job before after := by
      subst fine
      exact ⟨asked, first.drifts (drifts rfl)⟩
    obtain ⟨capacity, settings⟩ := runs.capacity_and_settings
    have entries := runs.entries asked
    exact
      { status := runLine_status run
        directory := (runs.enters_ok accepts names).imp_right fun ⟨fine, named⟩ =>
          ⟨job, does fine, named⟩
        exit := runs.exitRequested.imp_right fun ⟨requested, fine, named⟩ =>
          ⟨requested, job, does fine, named⟩
        entries := entries
        capacity := capacity
        settings := settings }

/-! ## The status that a line leaves -/

theorem HasLastStatus.of_believed {job : Job} {start : Nat} {changed : Session}
    {table : List Attempt}
    (left : HasLastStatus job start changed (table.map Attempt.believed)) :
    HasLastStatus job start changed table := by
  obtain ⟨runs, outcomes, last, has, found, status⟩ := left
  unfold HasOutcomes at has
  rw [slice_believed] at runs has
  refine ⟨runs_believed runs, outcomes, last, ?_, found, status⟩
  unfold HasOutcomes
  rw [← has, List.map_map]
  exact List.map_congr_left fun attempt _ =>
    (Life.view_believed Life.outcome? (fun _ _ => rfl) attempt.life).symm

section Status

variable {endings : Ending → Prop} {settings : Settings} {session changed : Session}
  {kernel last : Kernel}

/-- A job that was fetched has left the status of its last step, if nothing was untold before. -/
theorem fetched_hasLastStatus
    (reachable : Shell.Reachable (Kernel.world endings) settings ⟨.idle session, kernel⟩)
    (told : hasUntold kernel.attempts = false) {wanted : Option Pid} {outlet : Outlet}
    {entry : Entry} {jobs : Registry}
    (taken : Session.takeJob session.jobs wanted = .ok (entry, jobs))
    (run : (Kernel.world endings).Leads
      ⟨(Session.bringToForeground wanted outlet).perform session, kernel⟩
      ⟨.done (.ok (), changed), last⟩) :
    ∃ start, entry.Follows (Kernel.slice kernel.attempts start entry.job.steps.length) ∧
      HasLastStatus entry.job start changed last.attempts := by
  obtain ⟨answered, drifts, tells⟩ :=
    Ensures.result (bringToForeground_tells wanted outlet told) run
  have toldLast : hasUntold last.attempts = false :=
    (Kernel.ages_of_drifts drifts).hasUntold_eq.trans (tells rfl)
  -- The session has come here as if it could be told of every ending, and the run is one of those.
  obtain ⟨⟨accounts, -, held⟩, -⟩ := Shell.Sound.of_reachable (reachable.believed told)
  obtain ⟨_, broken⟩ | ⟨-, account, known, rfl, status⟩ :=
    bringToForeground_hasLastStatus held taken (Kernel.leads_believed run toldLast)
  · cases broken
  · have follows := held.custody.follows account known
    refine ⟨account.start, ?_, status.of_believed⟩
    apply Entry.Follows.of_believed
    rw [← slice_believed]
    exact follows

/-- A job that has come to its end in the foreground has left the status of its last step; one that
was fetched has, if nothing was untold before. -/
theorem EndsInForeground.leavesLastStatus {line : String} {job : Job}
    (reachable : Shell.Reachable (Kernel.world endings) settings ⟨.idle session, kernel⟩)
    (ends : EndsInForeground (Kernel.world endings) line job (session, kernel) (changed, last)) :
    LeavesLastStatus endings line (session, kernel) (changed, last) ∨
      hasUntold kernel.attempts = true ∧
        ∃ entry, job.Fetches session.jobs.entries entry changed.jobs.entries := by
  obtain ⟨does, ⟨outside, foreground⟩ | ⟨entry, fetches⟩⟩ := ends
  · have leads := does.done
    unfold World.Performs World.Comes at leads
    rw [runJob_of_program outside] at leads
    have orderly := Orderly.of_later Orderly.nil (Shell.Runs.later reachable)
    exact .inl (.ran does outside foreground (runProgramJob_hasLastStatus orderly foreground leads))
  · cases told : hasUntold kernel.attempts with
    | true => exact .inr ⟨rfl, entry, fetches⟩
    | false =>
        have named := fetches.named
        obtain ⟨wanted, deed, -⟩ := fetches.takenOut
        cases performs_runJob does.done with
        | program outside => cases outside.symm.trans named
        | looks _ unchanged => exact absurd unchanged fetches.changes
        | enters entersNamed => cases entersNamed.symm.trans named
        | ends endsNamed => cases endsNamed.symm.trans named
        | takes _ taking run =>
            cases performs_bringToForeground run with
            | waited taken =>
                obtain ⟨start, follows, status⟩ :=
                  fetched_hasLastStatus reachable told taken run
                have takenOut := (isTakenOut_of_takeJob taken).1
                exact .inl (.fetched does ⟨named, _, taking, takenOut⟩ follows status)

end Status

/-- Where output is accepted and a directory that was entered has a name, a line changes of a
session only what it may change, whatever comes of it.  In whatever ways children end, the status
is changed only by a job that has come to its end in the foreground, and is then that of the last
step of the job; only if a child was collected before of whose ending nothing could be told, and the
job was fetched, may it be another one.  A line that asks for a builtin is run as the builtin,
whatever else it says and whatever the session is: it starts nothing, makes no pipe and opens no
file. -/
theorem line_changes_what_it_asks_for (line : String) :
    (∀ {σ : Type} (world : World σ), world.AcceptsOutput → world.NamesEntered →
      ∀ before outcome after, world.Performs (Session.runLine line) before outcome after →
        ChangesAsAsked world line before after) ∧
    (∀ endings settings session kernel outcome after,
      Shell.Reachable (Kernel.world endings) settings ⟨.idle session, kernel⟩ →
      (Kernel.world endings).Performs (Session.runLine line) (session, kernel) outcome after →
        (after.1.lastStatus = session.lastStatus ∧
          ∀ job, ¬ EndsInForeground (Kernel.world endings) line job (session, kernel) after) ∨
        LeavesLastStatus endings line (session, kernel) after ∨
        hasUntold kernel.attempts = true ∧
          ∃ job entry, Does (Kernel.world endings) line job (session, kernel) after ∧
            job.Fetches session.jobs.entries entry after.1.jobs.entries) ∧
    ∀ job builtin, Job.parse line = .ok (some job) →
      Builtin.ofName? job.program = some builtin →
        Session.runLine line = Activity.report (builtin.run job.first.arguments .output) ∧
          (Session.runLine line).Makes (fun call => call.isOfBuiltins = true)
            fun stop => stop.isFinal = true := by
  refine ⟨fun _ accepts names _ _ _ => runLine_changesAsAsked accepts names, ?_,
    fun _ _ asked named =>
      ⟨Session.runLine_of_builtin asked named, Session.runLine_makes_ofBuiltins asked named⟩⟩
  rintro endings settings session kernel outcome ⟨changed, last⟩ reachable run
  by_cases ended : ∃ job,
      EndsInForeground (Kernel.world endings) line job (session, kernel) (changed, last)
  · obtain ⟨job, ends⟩ := ended
    obtain left | ⟨untold, entry, fetches⟩ := ends.leavesLastStatus reachable
    · exact .inr (.inl left)
    · exact .inr (.inr ⟨untold, job, entry, ends.does, fetches⟩)
  · refine .inl ⟨?_, not_exists.1 ended⟩
    exact (runLine_status run).resolve_right ended

private theorem obliging_namesEntered : Kernel.obliging.NamesEntered := by
  rintro path left _ asked given named ⟨⟨entered, -, rfl⟩, -⟩ drift ⟨-, granted⟩
  refine granted ?_
  rw [Kernel.calls_of_drifts drift]
  rfl

/-- A program that fails leaves its status, and a builtin in the background starts nothing. -/
theorem line_changes_of_failing_program :
    ∃ after,
      Kernel.obliging.Performs (Session.runLine "false") (Session.ofSettings {}, {}) (.ok ())
        after ∧
      after.1.lastStatus = some 1 ∧
      ChangesAsAsked Kernel.obliging "false" (Session.ofSettings {}, {}) after ∧
      LeavesLastStatus Ending.IsTold "false" (Session.ofSettings {}, {}) after ∧
      (Session.runLine "bglist &").Makes (fun call => call.isOfBuiltins = true)
        fun stop => stop.isFinal = true := by
  have told : Ending.IsTold (.exited 1) := rfl
  have asked : Job.parse "false" =
      .ok (some { input := "false", first := { program := "false" } }) := by decide +kernel
  have asksBuiltin : Job.parse "bglist &" =
      .ok (some { input := "bglist &", first := { program := "bglist" }, background := true }) := by
    decide +kernel
  have run : ∃ changed kernel, Kernel.obliging.Leads
      ⟨(Session.runLine "false").perform (Session.ofSettings {}), {}⟩
      ⟨.done (.ok (), changed), kernel⟩ ∧ changed.lastStatus = some 1 := by
    unfold Session.runLine
    rw [asked]
    apply Exists.intro
    apply Exists.intro
    constructor
    · refine Leads.answer (.ok ⟨10⟩) ⟨⟨_, ⟨by decide, rfl⟩, rfl⟩, trivial⟩ ?_
      refine Leads.stir (Kernel.Stirs.childEnds told (Turns.here rfl)) ?_
      refine Leads.answer (0 : Nat) ⟨⟨_, rfl, rfl⟩, trivial⟩ ?_
      refine Leads.answer (.ok (.ended (.exited 1)))
        ⟨⟨_, Or.inl ⟨_, _, Turns.here rfl, rfl, rfl⟩, rfl⟩, trivial⟩ ?_
      exact Relation.ReflTransGen.refl
    · rfl
  obtain ⟨changed, kernel, run, status⟩ := run
  have fresh : Shell.Reachable Kernel.telling {} ⟨.idle (Session.ofSettings {}), {}⟩ :=
    Relation.ReflTransGen.refl
  obtain ⟨changes, leaves, -⟩ := line_changes_what_it_asks_for "false"
  obtain ⟨-, -, builtins⟩ := line_changes_what_it_asks_for "bglist &"
  have asAsked := changes Kernel.obliging obliging_acceptsOutput obliging_namesEntered
    (Session.ofSettings {}, {}) (.ok ()) (changed, kernel) run
  obtain ⟨same, -⟩ | left | ⟨untold, -⟩ :=
    leaves Ending.IsTold {} _ _ (.ok ()) (changed, kernel) fresh run.of_restrict
  · cases same.symm.trans status
  · exact ⟨(changed, kernel), run, status, asAsked, left,
      (builtins _ .bglist asksBuiltin rfl).2⟩
  · cases untold

/-! ## A status of another job -/

private def lostJob : Job :=
  { input := "sleep &", first := { program := "sleep" }, background := true }

private def laterJob : Job :=
  { input := "yes | head &"
    first := { program := "yes" }
    rest := [{ program := "head" }]
    background := true }

/-- The step of the first job is killed by a signal without a name and collected, its number is
given to the first step of the second job, and then the first job is fetched. -/
private theorem leads_lostJob_fetched :
    ∃ started running ended collected swept session kernel changed last,
      (Kernel.world fun _ => True).Leads
        ⟨(Session.runJob lostJob).perform (Session.ofSettings {}), {}⟩
        ⟨.done (.ok (), started), running⟩ ∧
      (Kernel.world fun _ => True).stirs running ended ∧
      (Kernel.world fun _ => True).Leads ⟨Session.processSignals.perform started, ended⟩
        ⟨.done (.ok (), collected), swept⟩ ∧
      (Kernel.world fun _ => True).Leads ⟨(Session.runJob laterJob).perform collected, swept⟩
        ⟨.done (.ok (), session), kernel⟩ ∧
      (Kernel.world fun _ => True).Leads
        ⟨(Activity.report (Session.bringToForeground none .output)).perform session, kernel⟩
        ⟨.done (.ok (), changed), last⟩ ∧
      session.lastStatus = none ∧ session.jobs.entries.map Entry.job = [lostJob, laterJob] ∧
      changed.lastStatus = some 5 ∧
      last.attempts.map (fun attempt => (attempt.launch.program, attempt.life)) =
        [("sleep", .collected ⟨7⟩ (.killed 34)), ("yes", .collected ⟨7⟩ (.exited 5)),
          ("head", .running ⟨8⟩)] := by
  iterate 9 apply Exists.intro
  refine ⟨?_, ?_, ?_, ?_, ?_, ?_, ?_, ?_, ?_⟩
  · refine Leads.answer (.ok ⟨7⟩) ⟨_, ⟨by decide, rfl⟩, rfl⟩ ?_
    refine Leads.answer (⟨0⟩ : Moment) ⟨_, rfl, rfl⟩ ?_
    exact Relation.ReflTransGen.refl
  · exact @Kernel.Stirs.childEnds _ _ ⟨7⟩ (.killed 34) _ trivial (Turns.here rfl)
  · refine Leads.answer true ⟨_, ⟨rfl, rfl⟩, rfl⟩ ?_
    refine Leads.answer (1 : Nat) ⟨_, ⟨0, by decide, rfl⟩, rfl⟩ ?_
    refine Leads.answer (.error .invalidArgument)
      ⟨_, .inl ⟨⟨7⟩, .killed 34, _, Turns.here rfl, rfl, rfl⟩, rfl⟩ ?_
    refine Leads.answer false ⟨_, rfl, rfl⟩ ?_
    exact Relation.ReflTransGen.refl
  · refine Leads.answer (.ok (⟨3⟩, ⟨4⟩)) ⟨_, ⟨rfl, rfl, by decide, rfl⟩, rfl⟩ ?_
    refine Leads.answer (.ok ⟨7⟩) ⟨_, ⟨by decide, rfl⟩, rfl⟩ ?_
    refine Leads.answer () ⟨_, rfl, rfl⟩ ?_
    refine Leads.answer (.ok ⟨8⟩) ⟨_, ⟨by decide, rfl⟩, rfl⟩ ?_
    refine Leads.answer () ⟨_, rfl, rfl⟩ ?_
    refine Leads.answer (⟨0⟩ : Moment) ⟨_, rfl, rfl⟩ ?_
    exact Relation.ReflTransGen.refl
  · refine Leads.answer (.ok ()) ⟨_, rfl, rfl⟩ ?_
    refine Leads.stir (@Kernel.Stirs.childEnds _ _ ⟨7⟩ (.exited 5) _ trivial
      (Turns.later (Turns.here rfl))) ?_
    refine Leads.answer (0 : Nat) ⟨_, rfl, rfl⟩ ?_
    refine Leads.answer (.ok (.ended (.exited 5)))
      ⟨_, .inl ⟨_, _, Turns.later (Turns.here rfl), rfl, rfl⟩, rfl⟩ ?_
    exact Relation.ReflTransGen.refl
  · rfl
  · rfl
  · rfl
  · rfl

/-- A job of one step leaves the status of an attempt to run this step. -/
private theorem HasLastStatus.exists_attempt {job : Job} {step : Step} {start : Nat}
    {changed : Session} {table : List Attempt} (single : job.steps = [step])
    (left : HasLastStatus job start changed table) :
    ∃ attempt ∈ table, ∃ outcome, attempt.Runs step ∧ attempt.life.outcome? = some outcome ∧
      changed.lastStatus = some outcome.status := by
  obtain ⟨runs, outcomes, final, has, found, recorded⟩ := left
  rw [single] at runs
  obtain ⟨attempt, rest, ran, none, slice⟩ := List.forall₂_cons_right_iff.1 runs
  obtain rfl := List.forall₂_nil_right_iff.1 none
  have member : attempt ∈ table :=
    (Kernel.slice_sublist _ _ _).subset (slice ▸ List.mem_singleton_self attempt)
  unfold HasOutcomes at has
  rw [single, slice, List.map_singleton] at has
  obtain ⟨only, others, rfl, same, rest⟩ := List.map_eq_cons_iff.1 has.symm
  obtain rfl := List.map_eq_nil_iff.1 rest
  cases found
  exact ⟨attempt, member, only, ran, same.symm, recorded⟩

/-- The only step of a job in the background is killed by a signal without a name.  The session
collects it, but cannot tell; the number is given to the first step of another job, and the first
job is left with the status of that step. -/
theorem fetched_job_leaves_status_of_another :
    ∃ session kernel after,
      Shell.Reachable (Kernel.world fun _ => True) {} ⟨.idle session, kernel⟩ ∧
        (Kernel.world fun _ => True).Performs (Session.runLine "fg") (session, kernel) (.ok ())
          after ∧
        session.lastStatus = none ∧ after.1.lastStatus = some 5 ∧
        ¬ LeavesLastStatus (fun _ => True) "fg" (session, kernel) after := by
  have asked : Job.parse "fg" =
      .ok (some { input := "fg", first := { program := "fg" } }) := by decide +kernel
  have fetchesOldest : Session.runLine "fg" =
      Activity.report (Session.bringToForeground none .output) := by
    have oldest : Builtin.fg.operand? [] = .ok none := by decide +kernel
    rw [Session.runLine_of_builtin asked rfl, Builtin.run, oldest]
    rfl
  obtain ⟨started, running, ended, collected, swept, session, kernel, changed, last, launches,
    ends, sweeps, launchesOther, fetches, before, listed, after, table⟩ := leads_lostJob_fetched
  have begun : Shell.Reachable (Kernel.world fun _ => True) {} ⟨.idle started, running⟩ :=
    Shell.Runs.perform Relation.ReflTransGen.refl (.job lostJob) trivial launches
  have reaped : Shell.Reachable (Kernel.world fun _ => True) {} ⟨.idle collected, swept⟩ :=
    Shell.Runs.perform (begun.tail (.stirs ends)) .signals trivial sweeps
  have reachable := Shell.Runs.perform reaped (.job laterJob) trivial launchesOther
  rw [fetchesOldest]
  refine ⟨session, kernel, (changed, last), reachable, fetches, before, after, fun leaves => ?_⟩
  cases leaves with
  | ran does outside =>
      cases asked.symm.trans does.asked
      cases outside
  | @fetched job entry start does fetches _ status =>
      cases asked.symm.trans does.asked
      obtain ⟨wanted, deed, takenOut⟩ := fetches.takenOut
      have oldest : Job.deed { input := "fg", first := { program := "fg" } } =
          .takes none .output := by decide +kernel
      cases oldest.symm.trans deed
      have fetched : entry.job = lostJob := by
        generalize session.jobs.entries = entries at listed takenOut
        cases takenOut
        exact (List.cons.inj listed).1
      rw [fetched] at status
      -- Only the first attempt was one for the step of this job.
      obtain ⟨attempt, member, outcome, ran, reached, recorded⟩ := status.exists_attempt rfl
      have known : ("sleep", attempt.life) ∈
          last.attempts.map fun attempt => (attempt.launch.program, attempt.life) :=
        List.mem_map.2 ⟨attempt, member, Prod.ext ran.1 rfl⟩
      rw [table] at known
      have lived : attempt.life = .collected ⟨7⟩ (.killed 34) := by simpa using known
      rw [lived] at reached
      cases reached
      cases after.symm.trans recorded

end JobControl
