import JobControl.Session.Run
import JobControl.Proofs.Capacity
import JobControl.Proofs.OrderlyEnd.Tracking
/-!
# The orderly end of a run

A session that runs the lines of a text, or those of its standard input, ends by an exit: that of a
line, or the one that follows the last line.  The exit signals every process that has not been
reaped, in the order in which they were started, and none of them twice; and it tells of the
jobs in the order in which they were registered.
-/

namespace JobControl

open World

/-! ## Ending -/

/-- How some jobs are terminated that are all that is left of the jobs of a session: since a moment
exactly their processes have been signalled, in order; those are the processes that are unreaped,
none of them twice; and the last that was written is that these jobs are terminated. -/
structure Registry.Terminates (begun : Registry) (before : Kernel) (entries : List Entry)
    (after : Kernel) : Prop where
  keyed : IsKeyed entries
  remain : Remain begun.entries (before.shownUntil after Answered.childEvent?) entries
  unreaped : unreapedOf begun.processes (before.shownUntil after Answered.childEvent?) =
    entries.flatMap Entry.processes
  signalled : (before.shownUntil after Answered.childEvent?).filterMap ChildEvent.signalled? =
    entries.flatMap Entry.processes
  told : (entries.map fun entry => Session.jobNotice entry "Terminated") <:+
    before.shownUntil after (Answered.text? .output)

/-- Every process that was listed or has been started has been reaped or signalled. -/
theorem Registry.Terminates.settled {begun : Registry} {before after : Kernel}
    {entries : List Entry} (terminates : begun.Terminates before entries after) {pid : Pid}
    (known : pid ∈ begun.processes ∨
      pid ∈ (before.shownUntil after Answered.childEvent?).filterMap ChildEvent.started?) :
    ChildEvent.reaped pid ∈ before.shownUntil after Answered.childEvent? ∨
      pid ∈ (before.shownUntil after Answered.childEvent?).filterMap ChildEvent.signalled? := by
  rw [terminates.signalled, ← terminates.unreaped, or_comm]
  obtain listed | started := known
  · exact mem_unreapedOf_of_mem listed
  · exact mem_unreapedOf_of_started started

/-- No process has been signalled twice. -/
theorem Registry.Terminates.nodup_signalled {begun : Registry} {before after : Kernel}
    {entries : List Entry} (terminates : begun.Terminates before entries after) :
    ((before.shownUntil after Answered.childEvent?).filterMap ChildEvent.signalled?).Nodup := by
  rw [terminates.signalled]
  exact terminates.keyed.distinct

/-- The session has been asked to end and has no jobs left; those that it had have been
terminated.  Every process that was listed or has been started has been reaped or signalled, and
none has been signalled twice. -/
structure Session.HasEnded (before : Kernel) (begun : Registry) (session : Session)
    (kernel : Kernel) : Prop where
  requested : session.exitRequested = true
  gone : session.jobs.entries = []
  terminates : ∃ entries, begun.Terminates before entries kernel
  settled : ∀ pid, pid ∈ begun.processes ∨
      pid ∈ (before.shownUntil kernel Answered.childEvent?).filterMap ChildEvent.started? →
    ChildEvent.reaped pid ∈ before.shownUntil kernel Answered.childEvent? ∨
      pid ∈ (before.shownUntil kernel Answered.childEvent?).filterMap ChildEvent.signalled?
  once : ((before.shownUntil kernel Answered.childEvent?).filterMap ChildEvent.signalled?).Nodup

private theorem Session.HasEnded.of_terminates {before kernel : Kernel} {begun : Registry}
    {session : Session} {entries : List Entry} (requested : session.exitRequested = true)
    (gone : session.jobs.entries = []) (terminates : begun.Terminates before entries kernel) :
    session.HasEnded before begun kernel where
  requested := requested
  gone := gone
  terminates := ⟨entries, terminates⟩
  settled := fun _ known => terminates.settled known
  once := terminates.nodup_signalled

section Ending

variable {endings : Ending → Prop} {before kernel : Kernel} {begun : Registry}
variable {session : Session}

private theorem sendShutdown_signals {events : List ChildEvent} (pids : List Pid)
    (sees : before.Sees events kernel) :
    (Kernel.world endings).Ensures (fun _ _ => True) (sendShutdown pids)
      (fun _ after => before.Sees (events ++ pids.map .signalled) after) kernel := by
  induction pids generalizing kernel events with
  | nil => exact sees.nothingMore
  | cons pid rest inductionHypothesis =>
      rw [sendShutdown, ensures_bind, ensures_ask]
      intro asked drifts
      refine ⟨trivial, fun given after answers => ?_⟩
      have seen := (sees.of_drifts drifts).of_answers answers
      refine (inductionHypothesis seen).mono ?_
      intro _ last others
      simpa [Answered.childEvent?] using others

private theorem signalJobs_signals {events : List ChildEvent} (entries : List Entry)
    (sees : before.Sees events kernel) :
    (Kernel.world endings).Ensures (fun _ _ => True) (Session.signalJobs entries)
      (fun _ after => before.Sees
        (events ++ (entries.flatMap Entry.processes).map .signalled) after) kernel := by
  induction entries generalizing kernel events with
  | nil => exact sees.nothingMore
  | cons entry rest inductionHypothesis =>
      rw [Session.signalJobs, ensures_bind]
      refine (sendShutdown_signals entry.processes sees).mono ?_
      intro _ after seen
      refine (inductionHypothesis seen).mono ?_
      intro _ last others
      simpa using others

/-- A session that goes on is asked to end: every unreaped process is signalled, in order, and all
jobs are told to be terminated. -/
theorem exit_hasEnded (goesOn : session.GoesOn before begun kernel) :
    (Kernel.attending endings before begun).Achieves (fun _ _ => True) (Session.exit .output)
      session (fun outcome changed after => outcome = .ok () ∧
        changed.HasEnded before begun after) kernel := by
  obtain ⟨events, sees, reflects⟩ := goesOn.tracks
  unfold Session.exit
  rw [achieves_bind, achieves_get, afterActivity_ok]
  dsimp only
  rw [achieves_bind, achieves_set, afterActivity_ok, achieves_bind, achieves_lift,
    ensures_run_lift]
  refine (signalJobs_signals session.jobs.entries sees).granted.mono ?_
  intro _ signalled seen
  rw [afterActivity_ok, achieves_bind, achieves_lift]
  refine (announceTerminated_hears List.mem_cons_self session.jobs.entries).attended.mono ?_
  intro outcome told written
  obtain ⟨rfl, written⟩ := written
  rw [afterActivity_ok, achieves_modify]
  -- Signals reap nothing, so what was unreaped before them is what has been signalled.
  have shown := (written.sees seen).shown
  refine ⟨rfl, .of_terminates rfl rfl ⟨reflects.keyed, ?_, ?_, ?_, ?_⟩⟩
  · rw [shown]
    exact reflects.remain.further _
  · rw [shown, unreapedOf_append, unreapedOf_signalled]
    exact reflects.unreaped
  · rw [shown, List.filterMap_append, reflects.unsignalled, List.nil_append]
    exact signalled_signalled _
  · rw [seen.shownUntil_append written.texts]
    exact List.suffix_append _ _

end Ending

/-! ## Lines -/

section Lines

variable {endings : Ending → Prop} {before kernel : Kernel} {begun : Registry}
variable {session : Session}

/-- The session goes on or has ended; after a failure that is told, it goes on. -/
def Proceeds (before : Kernel) (begun : Registry) :
    Except Stop Unit → Session → Kernel → Prop
  | .ok _, session, after =>
      session.GoesOn before begun after ∨ session.HasEnded before begun after
  | .error (.failure failure), session, after =>
      failure.isFatal = false → session.GoesOn before begun after
  | .error (.breach _), _, _ => True

private theorem Proceeds.of_goesOn {outcome : Except Stop Unit} {changed : Session} {after : Kernel}
    (goesOn : Lasts outcome → changed.GoesOn before begun after) :
    Proceeds before begun outcome changed after := by
  cases outcome with
  | ok _ => exact Or.inl (goesOn fun _ equal => nomatch equal)
  | error stop =>
      cases stop with
      | failure failure =>
          intro harmless
          apply goesOn
          intro stop equal
          cases equal
          exact ⟨failure, rfl, harmless⟩
      | breach breach => exact trivial

private theorem builtin_proceeds (goesOn : session.GoesOn before begun kernel) (builtin : Builtin)
    (arguments : List String) :
    (Kernel.attending endings before begun).Achieves (fun _ _ => True)
      (builtin.run arguments .output) session (Proceeds before begun) kernel := by
  apply Builtin.run_cases (motive := fun activity =>
    (Kernel.attending endings before begun).Achieves (fun _ _ => True) activity session
      (Proceeds before begun) kernel)
  · exact fun failure _ => goesOn
  · intro other plain operand
    refine (goesOn.keeps (Builtin.runWith_keeps plain operand .output)).mono ?_
    exact fun _ _ _ still => Proceeds.of_goesOn fun _ => still
  · refine (exit_hasEnded goesOn).mono ?_
    intro outcome changed after ended
    obtain ⟨rfl, ended⟩ := ended
    exact Or.inr ended
  · intro wanted
    refine (bringToForeground_goesOn goesOn wanted).mono ?_
    exact fun _ _ _ still => Proceeds.of_goesOn still

private theorem runJob_proceeds (goesOn : session.GoesOn before begun kernel) (job : Job) :
    (Kernel.attending endings before begun).Achieves (fun _ _ => True) (Session.runJob job)
      session (Proceeds before begun) kernel := by
  unfold Session.runJob
  cases Builtin.ofName? job.program with
  | some builtin => exact builtin_proceeds goesOn builtin _
  | none =>
      refine (runProgramJob_goesOn goesOn job).mono ?_
      exact fun _ _ _ still => Proceeds.of_goesOn still

/-- What is done on a session that goes on, it goes on or ends after, with its failures told. -/
theorem report_proceeds {activity : Activity Unit}
    (achieved : (Kernel.attending endings before begun).Achieves (fun _ _ => True) activity
      session (Proceeds before begun) kernel) :
    (Kernel.attending endings before begun).Achieves (fun _ _ => True)
      (Activity.report activity) session (Proceeds before begun) kernel := by
  apply Achieves.report achieved
  intro failure changed after harmless reached
  have still : changed.GoesOn before begun after := reached harmless
  refine (still.plain (Action.complain_isPlain failure)).mono ?_
  exact fun _ last kept => Proceeds.of_goesOn fun _ => kept

private theorem runLine_proceeds (goesOn : session.GoesOn before begun kernel) (line : String) :
    (Kernel.attending endings before begun).Achieves (fun _ _ => True) (Session.runLine line)
      session (Proceeds before begun) kernel := by
  apply report_proceeds
  cases Job.parse line with
  | error stop => exact Proceeds.of_goesOn fun _ => goesOn
  | ok job =>
      cases job with
      | none => exact Or.inl goesOn
      | some job => exact runJob_proceeds goesOn job

/-- What the session is like when lines have been run without an error. -/
def Arrives (before : Kernel) (begun : Registry) (outcome : Except Stop Unit)
    (session : Session) (kernel : Kernel) : Prop :=
  outcome = .ok () →
    session.GoesOn before begun kernel ∨ session.HasEnded before begun kernel

private theorem arrives_of_error {stop : Stop} :
    Arrives before begun (.error stop) session kernel := by
  intro equal
  cases equal

/-- Signals are acted on before a line. -/
theorem signals_first {next : Activity Unit} (goesOn : session.GoesOn before begun kernel)
    (goOn : ∀ changed after, changed.GoesOn before begun after →
      (Kernel.attending endings before begun).Achieves (fun _ _ => True) next changed
        (Arrives before begun) after) :
    (Kernel.attending endings before begun).Achieves (fun _ _ => True)
      (do
        Activity.report Session.processSignals
        next) session (Arrives before begun) kernel := by
  rw [achieves_bind]
  have reported : (Kernel.attending endings before begun).Achieves (fun _ _ => True)
      (Activity.report Session.processSignals) session
      (fun _ changed after => changed.GoesOn before begun after) kernel := by
    apply Achieves.report (processSignals_goesOn goesOn)
    intro failure changed after _ still
    exact still.plain (Action.complain_isPlain failure)
  refine reported.mono ?_
  intro outcome changed after still
  cases outcome with
  | error stop => exact arrives_of_error
  | ok _ => exact goOn changed after still

/-- A line is run, and then what follows it. -/
theorem line_first {next : Activity Unit} {line : String}
    (goesOn : session.GoesOn before begun kernel)
    (goOn : ∀ changed after,
      changed.GoesOn before begun after ∨ changed.HasEnded before begun after →
      (Kernel.attending endings before begun).Achieves (fun _ _ => True) next changed
        (Arrives before begun) after) :
    (Kernel.attending endings before begun).Achieves (fun _ _ => True)
      (do
        Session.runLine line
        next) session (Arrives before begun) kernel := by
  rw [achieves_bind]
  refine (runLine_proceeds goesOn line).mono ?_
  intro outcome changed after proceeds
  cases outcome with
  | error stop => exact arrives_of_error
  | ok _ => exact goOn changed after proceeds

private theorem runLines_arrives (lines : List String)
    (there : session.GoesOn before begun kernel ∨ session.HasEnded before begun kernel) :
    (Kernel.attending endings before begun).Achieves (fun _ _ => True) (Session.runLines lines)
      session (Arrives before begun) kernel := by
  -- Once the session has ended, the lines that are left are passed over.
  induction lines generalizing session kernel with
  | nil => exact fun _ => there
  | cons line rest inductionHypothesis =>
      rw [Session.runLines, achieves_bind, achieves_get, afterActivity_ok]
      obtain goesOn | ended := there
      · rw [goesOn.requested, if_neg Bool.false_ne_true]
        apply signals_first goesOn
        intro signalled reaped still
        apply line_first still
        exact fun changed after => inductionHypothesis
      · rw [ended.requested, if_pos rfl]
        exact fun _ => Or.inr ended

private theorem finish_hasEnded
    (there : session.GoesOn before begun kernel ∨ session.HasEnded before begun kernel) :
    (Kernel.attending endings before begun).Achieves (fun _ _ => True) Session.finish session
      (fun _ changed after => changed.HasEnded before begun after) kernel := by
  unfold Session.finish
  rw [achieves_bind, achieves_get, afterActivity_ok]
  obtain goesOn | ended := there
  · rw [goesOn.requested, if_neg Bool.false_ne_true]
    refine (exit_hasEnded goesOn).mono ?_
    exact fun _ _ _ finished => finished.2
  · rw [ended.requested, if_pos rfl]
    exact ended

/-- Lines are run, and then the session is finished. -/
theorem ends_of_arrives {lines : Activity Unit}
    (arrives : (Kernel.attending endings before begun).Achieves (fun _ _ => True) lines session
      (Arrives before begun) kernel) :
    (Kernel.attending endings before begun).Achieves (fun _ _ => True)
      (do
        lines
        Session.finish) session
      (fun outcome changed after => outcome = .ok () → changed.HasEnded before begun after)
      kernel := by
  rw [achieves_bind]
  refine arrives.mono ?_
  intro outcome changed after there
  cases outcome with
  | error stop =>
      intro equal
      cases equal
  | ok _ =>
      rw [afterActivity_ok]
      refine (finish_hasEnded (there rfl)).mono ?_
      exact fun _ _ _ ended _ => ended

private theorem readLine_isPlain (withPrompt : Bool) :
    (LineEditor.readLine withPrompt).IsPlain := by
  have read : (LineEditor.readLine false).IsPlain := by
    apply Action.IsPlain.bind (Action.isPlain_ask rfl)
    intro answer
    cases answer with
    | error fault => exact Action.isPlain_throw rfl
    | ok taken =>
        cases taken with
        | none => exact Action.isPlain_pure none
        | some bytes =>
            dsimp only
            cases LineEditor.decode bytes with
            | ok line => exact Action.isPlain_pure (some line)
            | error fault => exact Action.isPlain_throw rfl
  cases withPrompt with
  | false => exact read
  | true =>
      apply Action.IsPlain.bind (Action.isPlain_ask rfl)
      intro answer
      cases answer with
      | ok _ => exact read
      | error reason => exact Action.isPlain_throw rfl

private theorem runInputLines_arrives (withPrompt : Bool) (count : Nat)
    (there : session.GoesOn before begun kernel ∨ session.HasEnded before begun kernel) :
    (Kernel.attending endings before begun).Achieves (fun _ _ => True)
      (Session.runInputLines withPrompt count) session (Arrives before begun) kernel := by
  induction count generalizing session kernel with
  | zero => exact fun _ => there
  | succ count inductionHypothesis =>
      rw [Session.runInputLines, achieves_bind, achieves_get, afterActivity_ok]
      obtain goesOn | ended := there
      · rw [goesOn.requested, if_neg Bool.false_ne_true]
        apply signals_first goesOn
        intro signalled reaped still
        rw [achieves_bind, achieves_lift]
        refine (still.plain (readLine_isPlain withPrompt)).mono ?_
        intro outcome read stillRead
        cases outcome with
        | error stop => exact arrives_of_error
        | ok line =>
            rw [afterActivity_ok]
            cases line with
            | some line =>
                apply line_first stillRead
                exact fun changed after => inductionHypothesis
            | none =>
                dsimp only
                by_cases notices : session.settings.showNotices = true
                · rw [if_pos notices, achieves_lift]
                  refine (stillRead.plain (Action.notice_isPlain _ _)).mono ?_
                  exact fun _ _ shown _ => Or.inl shown
                · rw [if_neg notices]
                  exact fun _ => Or.inl stillRead
      · rw [ended.requested, if_pos rfl]
        exact fun _ => Or.inr ended

end Lines

/-! ## Runs -/

/-- When a run of an activity has come to its end without an error, the session has been asked to
end, it has no jobs left, and since the run began its jobs have been terminated in order. -/
def Session.EndsOrderly (endings : Ending → Prop) (session : Session) (kernel : Kernel)
    (activity : Activity Unit) : Prop :=
  ∀ changed after,
    (Kernel.attending endings kernel session.jobs).Leads
      ⟨activity.perform session, kernel⟩ ⟨.done (.ok (), changed), after⟩ →
    changed.HasEnded kernel session.jobs after

section Runs

variable {endings : Ending → Prop} {before kernel after : Kernel} {begun : Registry}
variable {session : Session}

theorem Registry.Terminates.of_drifts {entries : List Entry}
    (terminates : begun.Terminates before entries kernel)
    (drifts : (Kernel.world endings).Drifts kernel after) :
    begun.Terminates before entries after := by
  have same : ∀ {β : Type} (view : Answered → Option β),
      before.shownUntil after view = before.shownUntil kernel view := by
    intro β view
    unfold Kernel.shownUntil
    rw [Kernel.record_of_drifts drifts]
  constructor
  · exact terminates.keyed
  · rw [same]
    exact terminates.remain
  · rw [same]
    exact terminates.unreaped
  · rw [same]
    exact terminates.signalled
  · rw [same]
    exact terminates.told

private theorem goesOn_first (keyed : Registry.IsKeyed session.jobs.entries)
    (unasked : session.exitRequested = false) : session.GoesOn kernel session.jobs kernel where
  requested := unasked
  tracks := ⟨[], .nothing kernel, keyed, .nothing session.jobs.entries, rfl, rfl⟩

private theorem endsOrderly_of_achieves {activity : Activity Unit}
    (achieved : (Kernel.attending endings kernel session.jobs).Achieves (fun _ _ => True) activity
      session (fun outcome changed after =>
        outcome = .ok () → changed.HasEnded kernel session.jobs after) kernel) :
    session.EndsOrderly endings kernel activity := by
  intro changed after leads
  obtain ⟨answered, drifts, ended⟩ := Ensures.result achieved leads
  have finished : changed.HasEnded kernel session.jobs answered := ended rfl
  obtain ⟨entries, terminates⟩ := finished.terminates
  exact .of_terminates finished.requested finished.gone (terminates.of_drifts drifts)

private theorem runText_endsOrderly (goesOn : session.GoesOn kernel session.jobs kernel)
    (text : String) : session.EndsOrderly endings kernel (Session.runText text) :=
  endsOrderly_of_achieves (ends_of_arrives (runLines_arrives (Text.lines text) (Or.inl goesOn)))

private theorem runInput_endsOrderly (goesOn : session.GoesOn kernel session.jobs kernel) :
    session.EndsOrderly endings kernel Session.runInput := by
  apply endsOrderly_of_achieves
  unfold Session.runInput
  rw [achieves_bind, achieves_lift, ensures_run_ask]
  intro asked drifts
  refine ⟨trivial, fun terminal known answered => ?_⟩
  obtain ⟨⟨answers, -⟩, -⟩ := answered
  have still := goesOn.tracks.of_answers drifts answers rfl
  rw [afterActivity_ok, achieves_bind, achieves_lift, ensures_run_ask]
  intro asked drifts
  refine ⟨trivial, fun lines bounded answered => ?_⟩
  obtain ⟨⟨answers, -⟩, -⟩ := answered
  have ready := still.of_answers drifts answers rfl
  rw [afterActivity_ok]
  exact ends_of_arrives (runInputLines_arrives _ _ (Or.inl ⟨goesOn.requested, ready⟩))

end Runs

/-- A session that has not been asked to end ends in an orderly way when it has run the lines of a
text or those of its standard input, if text for its output is written: it has been asked to end,
and no jobs are left.  Every process of a job that was listed before or has been registered since
has been reaped or signalled.  None has been signalled twice; the processes are signalled, and
the jobs are told to be terminated, in the order in which the jobs were registered. -/
theorem Session.Arises.ends_orderly {endings : Ending → Prop} {settings : Settings}
    {session : Session} {kernel : Kernel} (arises : session.Arises endings settings kernel)
    (unasked : session.exitRequested = false) :
    (∀ text, session.EndsOrderly endings kernel (Session.runText text)) ∧
      session.EndsOrderly endings kernel Session.runInput := by
  have goesOn : session.GoesOn kernel session.jobs kernel :=
    goesOn_first arises.isWithin.keyed unasked
  exact ⟨runText_endsOrderly goesOn, runInput_endsOrderly goesOn⟩

/-- A session with a job in the background ends at the end of a text: the process of the job is
signalled, and the job is told to be terminated. -/
theorem Session.Arises.ends_orderly_of_job :
    let job : Job := { input := "sleep &", first := { program := "sleep" }, background := true }
    ∃ session kernel changed after, session.Arises Ending.IsTold {} kernel ∧
      session.jobs.entries.map Entry.job = [job] ∧
      (Kernel.attending Ending.IsTold kernel session.jobs).Leads
        ⟨(Session.runText "").perform session, kernel⟩ ⟨.done (.ok (), changed), after⟩ ∧
      changed.HasEnded kernel session.jobs after ∧
      (kernel.shownUntil after Answered.childEvent?).filterMap ChildEvent.signalled? = [⟨7⟩] ∧
      kernel.shownUntil after (Answered.text? .output) = ["[7] Terminated\tsleep &\n"] := by
  intro job
  have runs : ∃ session kernel changed after,
      (Kernel.renewing Ending.IsTold {} []).Leads
        ⟨(Session.runJob job).perform (Session.ofSettings {}), {}⟩
        ⟨.done (.ok (), session), kernel⟩ ∧
      (Kernel.attending Ending.IsTold kernel session.jobs).Leads
        ⟨(Session.runText "").perform session, kernel⟩ ⟨.done (.ok (), changed), after⟩ ∧
      session.exitRequested = false ∧ session.jobs.entries.map Entry.job = [job] ∧
      (kernel.shownUntil after Answered.childEvent?).filterMap ChildEvent.signalled? = [⟨7⟩] ∧
      kernel.shownUntil after (Answered.text? .output) = ["[7] Terminated\tsleep &\n"] := by
    apply Exists.intro
    apply Exists.intro
    apply Exists.intro
    apply Exists.intro
    apply And.intro
    · refine Leads.answer (.ok ⟨7⟩) ⟨⟨_, ⟨by decide, rfl⟩, rfl⟩, List.not_mem_nil⟩ ?_
      refine Leads.answer (⟨0⟩ : Moment) ⟨⟨_, rfl, rfl⟩, trivial⟩ ?_
      exact Relation.ReflTransGen.refl
    · apply And.intro
      · refine Leads.answer (.ok ()) ⟨⟨⟨_, rfl, rfl⟩, trivial⟩, trivial⟩ ?_
        refine Leads.answer (.ok ()) ⟨⟨⟨_, rfl, rfl⟩, trivial⟩, fun _ => rfl⟩ ?_
        exact Relation.ReflTransGen.refl
      · exact ⟨rfl, rfl, rfl, by decide⟩
  obtain ⟨session, kernel, changed, after, started, ended, unasked, jobs, signals, told⟩ := runs
  have arises : session.Arises Ending.IsTold {} kernel := .performs (.job job) .begins started
  exact ⟨session, kernel, changed, after, arises, jobs, ended,
    (Session.Arises.ends_orderly arises unasked).1 "" changed after ended, signals, told⟩

end JobControl
