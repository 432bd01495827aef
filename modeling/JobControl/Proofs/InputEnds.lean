import JobControl.Proofs.Course.Input
import JobControl.Proofs.FailedJobs.Builtins
/-!
# How a session through the standard input ends

Where its output is written, a session that goes through its standard input ends in order, by
signalling its background jobs, unless something final stops it.  There is one exception: a line
that is not UTF-8 is a failure of reading, which is not told like others but ends the session, with
the lines after it not run and the jobs not signalled.
-/

namespace JobControl

open World

variable {σ : Type}

/-- Whatever is written to the output, it is accepted. -/
def World.AcceptsOutput (world : World σ) : Prop :=
  ∀ text before given after,
    world.answers (.write .output text) before given after → given = .ok ()

namespace World.AcceptsOutput

variable {world : World σ}

theorem showsPrompt (accepts : world.AcceptsOutput) : world.ShowsPrompt :=
  accepts _

theorem reading (accepts : world.AcceptsOutput) : world.reading.AcceptsOutput :=
  fun text _ given _ answers => accepts text _ given _ ((reading_answers_iff rfl).1 answers).1

/-- What follows a text for the output goes on as if it was written. -/
theorem comes_of_write (accepts : world.AcceptsOutput) {text : String} {before after : σ}
    {outcome : Except Stop Unit} {next : Except Errno Unit → Action Unit}
    (run : world.Comes (Action.ask (.write .output text) >>= next).run before outcome after) :
    ∃ answered, world.Comes (next (.ok ())).run answered outcome after := by
  obtain ⟨asked, given, answered, drift, answers, later⟩ := comes_step_iff.1 run
  rw [accepts _ _ _ _ answers] at later
  exact ⟨answered, later⟩

private theorem notice_ok (accepts : world.AcceptsOutput) {text : String} {before after : σ}
    {outcome : Except Stop Unit}
    (run : world.Comes (Action.notice .output text).run before outcome after) :
    outcome = .ok () := by
  obtain ⟨answered, later⟩ := accepts.comes_of_write run
  exact (comes_done_iff.1 later).1

theorem write_ok (accepts : world.AcceptsOutput) {text : String} {before after : σ}
    {outcome : Except Stop Unit}
    (run : world.Comes (Action.write .output text).run before outcome after) :
    outcome = .ok () := by
  obtain ⟨answered, later⟩ := accepts.comes_of_write run
  exact (comes_done_iff.1 later).1

private theorem announceTerminated_ok (accepts : world.AcceptsOutput) {entries : List Entry}
    {before after : σ} {outcome : Except Stop Unit}
    (run : world.Comes (Session.announceTerminated .output entries).run before outcome after) :
    outcome = .ok () := by
  induction entries generalizing before with
  | nil => exact (comes_done_iff.1 run).1
  | cons entry rest inductionHypothesis =>
      obtain ⟨-, middle, -, later⟩ | ⟨stop, -, refused⟩ := comes_run_bind_iff.1 run
      · exact inductionHypothesis later
      · cases accepts.write_ok refused

end World.AcceptsOutput

/-- A session in a state has been asked to end, or signals every job that it has. -/
def World.SignalsJobs (world : World σ) (before : Session × σ) : Prop :=
  before.1.exitRequested = true ∨
    ∃ signalled, world.Comes (Session.signalJobs before.1.jobs.entries) before.2 () signalled

private theorem performs_exit {world : World σ} (accepts : world.AcceptsOutput)
    {before after : Session × σ} {outcome : Except Stop Unit}
    (run : world.Performs (Session.exit .output) before outcome after) :
    outcome = .ok () ∧ after.1.exitRequested = true ∧
      ∃ signalled,
        world.Comes (Session.signalJobs before.1.jobs.entries) before.2 () signalled := by
  rw [Session.exit, performs_get_bind_iff] at run
  dsimp only [Registry.drain] at run
  rw [performs_set_bind_iff, performs_bind_iff] at run
  obtain ⟨⟨⟩, told, signals, later⟩ | ⟨stop, -, refused⟩ := run
  · obtain ⟨-, signals⟩ := performs_lift_iff.1 signals
    obtain ⟨_, -, signals⟩ := comes_lift_iff.1 signals
    obtain ⟨⟨⟩, announced, -, later⟩ | ⟨stop, -, refused⟩ := performs_bind_iff.1 later
    · obtain ⟨rfl, changed, -⟩ := performs_modify_iff.1 later
      exact ⟨rfl, changed ▸ rfl, told.2, signals⟩
    · cases accepts.announceTerminated_ok (performs_lift_iff.1 refused).2
  · obtain ⟨_, broken, -⟩ := comes_lift_iff.1 (performs_lift_iff.1 refused).2
    cases broken

/-- The end of the lines asks the session to end, with its jobs signalled. -/
theorem performs_finish {world : World σ} (accepts : world.AcceptsOutput)
    {before after : Session × σ} {outcome : Except Stop Unit}
    (run : world.Performs Session.finish before outcome after) :
    outcome = .ok () ∧ after.1.exitRequested = true ∧ world.SignalsJobs before := by
  rw [Session.finish, performs_get_bind_iff] at run
  by_cases ends : before.1.exitRequested = true
  · rw [if_pos ends] at run
    obtain ⟨rfl, same, -⟩ := performs_pure_iff.1 run
    exact ⟨rfl, same ▸ ends, .inl ends⟩
  · rw [if_neg ends] at run
    obtain ⟨fine, ended, signals⟩ := performs_exit accepts run
    exact ⟨fine, ended, .inr signals⟩

/-! ## The end of the input -/

private theorem ReadsFrom.none_left {lines left : List ByteArray}
    (reads : ReadsFrom lines (.ok none) left) :
    lines = [] := by
  cases lines with
  | nil => rfl
  | cons bytes rest =>
      cases decoded : LineEditor.decode bytes with
      | ok line => cases (lineOfAnswer_of_ok decoded).symm.trans reads.1.symm
      | error fault => cases (lineOfAnswer_of_error decoded).symm.trans reads.1.symm

/-- The first of some lines is not UTF-8. -/
def IsUnreadable (lines : List ByteArray) : Prop :=
  ∃ bytes, lines.head? = some bytes ∧ LineEditor.decode bytes = .error .notText

/-- Reading fails only at a line that is not UTF-8. -/
theorem ReadsFrom.isUnreadable {lines left : List ByteArray} {stop : Stop}
    (reads : ReadsFrom lines (.error stop) left) :
    stop = .failure (.reading .notText) ∧ IsUnreadable lines := by
  cases lines with
  | nil => cases reads.1
  | cons bytes rest =>
      cases decoded : LineEditor.decode bytes with
      | ok line => cases (lineOfAnswer_of_ok decoded).symm.trans reads.1.symm
      | error fault =>
          have onlyFault : fault = .notText := by
            unfold LineEditor.decode at decoded
            split at decoded
            · cases decoded
            · exact (Except.error.inj decoded).symm
          cases onlyFault
          have same := Except.error.inj (reads.1.trans (lineOfAnswer_of_error decoded))
          exact ⟨same, bytes, rfl, decoded⟩

private theorem performs_tellEnd {world : World σ} (accepts : world.AcceptsOutput)
    {session : Session} {before after : Session × σ} {outcome : Except Stop Unit}
    (run : world.Performs (tellEnd session) before outcome after) : outcome = .ok () := by
  unfold tellEnd at run
  split at run
  · exact accepts.notice_ok (performs_lift_iff.1 run).2
  · exact (performs_pure_iff.1 run).1

/-- Where no line can be read any more, either none is left, or the session stops. -/
theorem performs_endOfInput_cases {world : World σ} (accepts : world.AcceptsOutput)
    {withPrompt : Bool} {before after : Session × σ × List ByteArray} {outcome : Except Stop Unit}
    (readable : before.1.exitRequested = true ∨ readableLines before.2.2 = [])
    (run : world.reading.Performs (endOfInput withPrompt) before outcome after) :
    (outcome = .ok () ∧ (before.2.2 = [] ∨ before.1.exitRequested = true)) ∨
      (∃ stop, outcome = .error stop ∧ stop.isFinal = true) ∨
      outcome = .error (.failure (.reading .notText)) ∧ IsUnreadable before.2.2 := by
  rw [endOfInput, performs_get_bind_iff] at run
  by_cases ends : before.1.exitRequested = true
  · rw [if_pos ends] at run
    exact .inl ⟨(performs_pure_iff.1 run).1, .inr ends⟩
  rw [if_neg ends, performs_bind_iff] at run
  have noLine := readable.resolve_left ends
  obtain ⟨⟨⟩, told, signals, later⟩ | ⟨stop, rfl, signals⟩ := run
  · have unread := (Session.processSignals_makes.performs_reading_iff.1 signals).2
    obtain ⟨found, fetched, fetch, later⟩ | ⟨stop, rfl, fetch⟩ := performs_bind_iff.1 later
    · have reads := performs_readLine_reads accepts.showsPrompt fetch
      rw [unread] at reads
      cases found with
      | none =>
          exact .inl ⟨performs_tellEnd accepts.reading later, .inl reads.none_left⟩
      | some line =>
          rw [reads.first_readable] at noLine
          cases noLine
    · have reads := performs_readLine_reads accepts.showsPrompt fetch
      rw [unread] at reads
      obtain ⟨rfl, unreadable⟩ := reads.isUnreadable
      exact .inr (.inr ⟨rfl, unreadable⟩)
  · exact .inr (.inl ⟨stop, rfl, Session.processSignals_makes.stop signals⟩)

/-- A session has come to the end of its input or was asked to end; it has signalled the jobs that
it had then, and is asked to end. -/
structure EndsInOrder (world : World σ) (withPrompt : Bool)
    (reached after : Session × σ × List ByteArray) : Prop where
  finished : reached.2.2 = [] ∨ reached.1.exitRequested = true
  signals : ∃ closing, world.reading.Performs (endOfInput withPrompt) reached (.ok ()) closing ∧
    world.reading.SignalsJobs closing
  requested : after.1.exitRequested = true

/-- After the course through the lines that can be read there are none such left, unless the session
was asked to end. -/
theorem Course.nothing_readable {world : World σ} (shows : world.ShowsPrompt) {withPrompt : Bool}
    {lines performed : List String} {before reached : Session × σ × List ByteArray}
    (course : Course world.reading (Typed world withPrompt) lines performed before (.ok ()) reached)
    (readable : readableLines before.2.2 = lines) :
    reached.1.exitRequested = true ∨ readableLines reached.2.2 = [] := by
  obtain all | ends | ⟨stop, stopped⟩ := course.all_or_ended
  · right
    have enough : performed.length ≤ (readableLines before.2.2).length :=
      Nat.le_of_eq (congrArg List.length (all.trans readable.symm))
    rw [course.left_eq shows, readableLines_drop enough, readable, all, List.drop_length]
  · exact .inl ends
  · cases stopped

/-- Where its output is accepted, a session that goes through its standard input runs the lines in
turn, and either it ends in order, or something final stops it, or the next line is not UTF-8; then
it fails as it reads that line. -/
theorem input_ends_in_order_unless_stopped_or_unreadable {world : World σ}
    (accepts : world.AcceptsOutput) {session : Session} {state : σ} {lines : List ByteArray}
    {outcome : Except Stop Unit} {after : Session × σ × List ByteArray}
    (run : world.reading.Performs Session.runInput (session, state, lines) outcome after) :
    ∃ withPrompt opened performed ended reached,
      Course world.reading (Typed world withPrompt) (readableLines lines) performed
        (session, opened, lines) ended reached ∧
      reached.2.2 = lines.drop performed.length ∧
      ((outcome = .ok () ∧ ended = .ok () ∧ EndsInOrder world withPrompt reached after) ∨
        (∃ stop, outcome = .error stop ∧ stop.isFinal = true) ∨
        outcome = .error (.failure (.reading .notText)) ∧ ended = .ok () ∧
          IsUnreadable reached.2.2) := by
  obtain ⟨asked, terminal, ⟨opened, left⟩, performed, drift, answers, through⟩ :=
    (performs_runInput_iff accepts.showsPrompt).1 run
  obtain rfl : left = lines :=
    ((reading_answers_iff rfl).1 answers).2.trans (drifts_reading_iff.1 drift).2
  obtain ⟨reached, course, closes⟩ | ⟨stop, rfl, course⟩ := through
  · have left : reached.2.2 = _ := course.left_eq accepts.showsPrompt
    refine ⟨_, opened, performed, .ok (), reached, course, left, ?_⟩
    obtain ⟨⟨⟩, closing, ends, finishes⟩ | ⟨stop, rfl, ends⟩ := performs_bind_iff.1 closes
    · obtain ⟨rfl, requested, signals⟩ := performs_finish accepts.reading finishes
      obtain ⟨-, finished⟩ | ⟨stop, stopped, -⟩ | ⟨stopped, -⟩ :=
        performs_endOfInput_cases accepts (course.nothing_readable accepts.showsPrompt rfl) ends
      · exact .inl ⟨rfl, rfl, finished, ⟨closing, ends, signals⟩, requested⟩
      · cases stopped
      · cases stopped
    · obtain ⟨broken, -⟩ | stopped | ⟨stopped, unreadable⟩ :=
        performs_endOfInput_cases accepts (course.nothing_readable accepts.showsPrompt rfl) ends
      · cases broken
      · obtain ⟨_, same, final⟩ := stopped
        cases same
        exact .inr (.inl ⟨stop, rfl, final⟩)
      · cases stopped
        exact .inr (.inr ⟨rfl, rfl, unreadable⟩)
  · have left : after.2.2 = _ := course.left_eq accepts.showsPrompt
    exact ⟨_, opened, performed, .error stop, after, course, left,
      .inr (.inl ⟨stop, rfl, course.isFinal rfl⟩)⟩

/-! ## A line that is not UTF-8 -/

theorem obliging_acceptsOutput : Kernel.obliging.AcceptsOutput :=
  fun _ _ _ _ answers => answers.2

/-- Where no signal has come, a session that acts on its signals may only ask for them. -/
theorem obliging_without_signals (session : Session) {kernel : Kernel}
    (quiet : kernel.reapWanted = false) :
    ∃ after, Kernel.obliging.Performs (Activity.report Session.processSignals) (session, kernel)
        (.ok ()) (session, after) ∧
      after.calls.map Answered.call =
        .takeFlag .shutdown :: .takeFlag .childEnded :: kernel.calls.map Answered.call := by
  have asks : ∃ after, Kernel.obliging.Leads
      ⟨(Activity.report Session.processSignals).perform session, kernel⟩
      ⟨.done (.ok (), session), after⟩ ∧
      after.calls.map Answered.call =
        .takeFlag .shutdown :: .takeFlag .childEnded :: kernel.calls.map Answered.call := by
    apply Exists.intro
    apply And.intro
    · refine Leads.answer false ⟨⟨_, ⟨quiet.symm, rfl⟩, rfl⟩, trivial⟩ ?_
      refine Leads.answer false ⟨⟨_, rfl, rfl⟩, trivial⟩ ?_
      exact Relation.ReflTransGen.refl
    · rfl
  exact asks

/-- A line of one byte that begins no character. -/
def unreadableLine : ByteArray :=
  ⟨#[0xff, 0x0a]⟩

private theorem decode_unreadableLine : LineEditor.decode unreadableLine = .error .notText := by
  decide

/-- A session that has not been asked to end, and comes to a line that is not UTF-8, may fail with
the jobs and the lines that it has, and nothing asked but for signals. -/
theorem unreadable_line_stops_session (session : Session) (goesOn : session.exitRequested = false)
    (rest : List ByteArray) :
    ∃ kernel, Kernel.obliging.reading.Performs Session.runInput
        (session, {}, unreadableLine :: rest) (.error (.failure (.reading .notText)))
        (session, kernel, rest) ∧
      kernel.calls.map Answered.call =
        [.takeFlag .shutdown, .takeFlag .childEnded, .environment "TERM"] := by
  let lines := unreadableLine :: rest
  let asked : Kernel := { calls := [⟨.environment "TERM", (none : Option String)⟩] }
  have quiet : asked.reapWanted = false := rfl
  obtain ⟨kernel, signals, calls⟩ := obliging_without_signals session quiet
  have told := Session.processSignals_makes.performs_reading signals lines
  have fails : Kernel.obliging.reading.Performs (liftM (LineEditor.readLine false))
      (session, kernel, lines) (.error (.failure (.reading .notText))) (session, kernel, rest) :=
    performs_lift_iff.2 ⟨rfl, comes_readLine_iff.2
      ⟨Relation.ReflTransGen.refl, (lineOfAnswer_of_error decode_unreadableLine).symm, rfl⟩⟩
  have ends : Kernel.obliging.reading.Performs (endOfInput false >>= fun _ => Session.finish)
      (session, asked, lines) (.error (.failure (.reading .notText))) (session, kernel, rest) := by
    refine performs_bind_iff.2 (.inr ⟨_, rfl, ?_⟩)
    rw [endOfInput, performs_get_bind_iff, if_neg (by simp [goesOn])]
    exact performs_bind_iff.2 (.inl ⟨(), _, told, performs_bind_iff.2 (.inr ⟨_, rfl, fails⟩)⟩)
  have noLine : readableLines lines = [] := readableLines_cons_of_error decode_unreadableLine rest
  refine ⟨kernel, (performs_runInput_iff obliging_acceptsOutput.showsPrompt).2 ?_, calls⟩
  refine ⟨({}, lines), none, (asked, lines), [], Relation.ReflTransGen.refl, ?_, ?_⟩
  · exact (reading_answers_iff rfl).2 ⟨⟨⟨_, rfl, rfl⟩, trivial⟩, rfl⟩
  · change RunsThrough _ _ _ (readableLines lines) _ _ _ _
    rw [noLine]
    exact runsThrough_nil_iff.2 ⟨rfl, ends⟩

/-- A session with a job in the background. -/
def watching : Session :=
  { Session.ofSettings {} with
    jobs :=
      { entries :=
          [{ job := { input := "sleep &", first := { program := "sleep" }, background := true }
             pid := ⟨7⟩
             processes := [⟨7⟩]
             lastStep := some ⟨7⟩
             started := ⟨0⟩ }] } }

/-- The session comes to the end of its course at the line that is not UTF-8. -/
theorem watching_stops_at_unreadable_line :
    Kernel.obliging.AcceptsOutput ∧
      ∃ outcome after, Kernel.obliging.reading.Performs Session.runInput
          (watching, {}, [unreadableLine, "echo hi\n".toUTF8]) outcome after ∧
        ∃ withPrompt opened performed ended reached,
          Course Kernel.obliging.reading (Typed Kernel.obliging withPrompt)
            (readableLines [unreadableLine, "echo hi\n".toUTF8]) performed
            (watching, opened, [unreadableLine, "echo hi\n".toUTF8]) ended reached ∧
          IsUnreadable reached.2.2 := by
  obtain ⟨kernel, run, -⟩ :=
    unreadable_line_stops_session watching rfl ["echo hi\n".toUTF8]
  obtain ⟨withPrompt, opened, performed, ended, reached, course, -, ends⟩ :=
    input_ends_in_order_unless_stopped_or_unreadable obliging_acceptsOutput run
  refine ⟨obliging_acceptsOutput, _, _, run, withPrompt, opened, performed, ended, reached, course,
    ?_⟩
  obtain ⟨broken, -⟩ | ⟨stop, same, final⟩ | ⟨-, -, unreadable⟩ := ends
  · cases broken
  · cases same
    cases final
  · exact unreadable

/-- It is not so that only what is final stops a session at its standard input: here the job in the
background has not been signalled, and a line is left that was not run. -/
theorem not_only_final_stops_input :
    ¬∀ (session : Session) (lines : List ByteArray) (stop : Stop)
        (after : Session × Kernel × List ByteArray),
      Kernel.obliging.reading.Performs Session.runInput (session, {}, lines) (.error stop) after →
      stop.isFinal = true := by
  intro only
  obtain ⟨kernel, run, -⟩ :=
    unreadable_line_stops_session watching rfl ["echo hi\n".toUTF8]
  cases only watching _ _ _ run

end JobControl
