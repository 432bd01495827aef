import JobControl.Proofs.Course
import JobControl.Proofs.InputLines
/-!
# The course through the standard input

The standard input is a list of lines that only reading takes away: the children of a session do
not read it.  A session reads a line each time it has acted on its signals, so its runs are the
courses through the lines that can be read, followed by what happens at the end of the input or at
a line that cannot be read.
-/

namespace JobControl

open World

variable {σ α : Type}

/-- What is answered about the lines that are left of an input, and which are left then. -/
inductive Takes : List ByteArray → (call : Call) → call.Answer → List ByteArray → Prop where
  | line (bytes : ByteArray) (rest : List ByteArray) :
      Takes (bytes :: rest) .readLine (.ok (some bytes)) rest
  | none :
      Takes [] .readLine (.ok .none) []
  | bound {left : List ByteArray} {count : Nat} (enough : left.length ≤ count) :
      Takes left (.bound .inputLines) count left

/-- A world with the lines that are left of the standard input. -/
def World.reading (world : World σ) : World (σ × List ByteArray) where
  stirs before after := world.stirs before.1 after.1 ∧ after.2 = before.2
  answers call before given after :=
    if call.isOfInput = true then Takes before.2 call given after.2 ∧ after.1 = before.1
    else world.answers call before.1 given after.1 ∧ after.2 = before.2

section Reading

variable {world : World σ}

theorem drifts_reading_iff {before after : σ × List ByteArray} :
    world.reading.Drifts before after ↔ world.Drifts before.1 after.1 ∧ after.2 = before.2 := by
  constructor
  · intro drift
    induction drift with
    | refl => exact ⟨Relation.ReflTransGen.refl, rfl⟩
    | tail _ stirred inductionHypothesis =>
        obtain ⟨earlier, same⟩ := inductionHypothesis
        exact ⟨earlier.tail stirred.1, stirred.2.trans same⟩
  · obtain ⟨state, left⟩ := before
    obtain ⟨later, still⟩ := after
    rintro ⟨drift, same⟩
    obtain rfl : still = left := same
    change world.Drifts state later at drift
    induction drift with
    | refl => exact Relation.ReflTransGen.refl
    | tail _ stirred inductionHypothesis => exact inductionHypothesis.tail ⟨stirred, rfl⟩

/-- What is not asked of the input leaves its lines. -/
theorem reading_answers_iff {call : Call} (apart : call.isOfInput = false)
    {before after : σ × List ByteArray} {given : call.Answer} :
    world.reading.answers call before given after ↔
      world.answers call before.1 given after.1 ∧ after.2 = before.2 := by
  simp only [World.reading, apart, Bool.false_eq_true, if_false]

/-- A program that asks for no input runs as it does without one, and leaves its lines. -/
theorem comes_reading_iff {program : Program α} {good : α → Prop}
    (within : program.Within (fun call => call.isOfInput = false) good) {result : α}
    {before after : σ × List ByteArray} :
    world.reading.Comes program before result after ↔
      world.Comes program before.1 result after.1 ∧ after.2 = before.2 := by
  induction program generalizing before with
  | done given => rw [comes_done_iff, comes_done_iff, drifts_reading_iff, and_assoc]
  | step call next inductionHypothesis =>
      rw [comes_step_iff, comes_step_iff]
      constructor
      · rintro ⟨asked, given, answered, drift, answers, later⟩
        obtain ⟨before_asked, unread⟩ := drifts_reading_iff.1 drift
        obtain ⟨answers, same⟩ := (reading_answers_iff within.1).1 answers
        obtain ⟨later, left⟩ := (inductionHypothesis given (within.2 given)).1 later
        exact ⟨⟨asked.1, given, answered.1, before_asked, answers, later⟩,
          left.trans (same.trans unread)⟩
      · rintro ⟨⟨asked, given, answered, drift, answers, later⟩, left⟩
        exact ⟨(asked, before.2), given, (answered, before.2), drifts_reading_iff.2 ⟨drift, rfl⟩,
          (reading_answers_iff within.1).2 ⟨answers, rfl⟩,
          (inductionHypothesis given (within.2 given)).2 ⟨later, left⟩⟩

/-- The session and the state apart from the lines that are left of the input. -/
def withoutInput (moment : Session × σ × List ByteArray) : Session × σ :=
  (moment.1, moment.2.1)

theorem Activity.Makes.performs_reading_iff {stops : Stop → Prop} {activity : Activity α}
    (makes : activity.Makes (fun call => call.isOfInput = false) stops) {outcome : Except Stop α}
    {before after : Session × σ × List ByteArray} :
    world.reading.Performs activity before outcome after ↔
      world.Performs activity (withoutInput before) outcome (withoutInput after) ∧
        after.2.2 = before.2.2 :=
  comes_reading_iff (makes before.1)

theorem Activity.Makes.performs_reading {stops : Stop → Prop} {activity : Activity α}
    (makes : activity.Makes (fun call => call.isOfInput = false) stops) {outcome : Except Stop α}
    {before after : Session × σ} (run : world.Performs activity before outcome after)
    (left : List ByteArray) :
    world.reading.Performs activity (before.1, before.2, left) outcome
      (after.1, after.2, left) :=
  (comes_reading_iff (makes before.1)).2 ⟨run, rfl⟩

/-! ## Reading one line -/

/-- What comes of the answer to a request for a line. -/
def lineOfAnswer : Except AccessFault (Option ByteArray) → Except Stop (Option String)
  | .error fault => .error (.failure (.reading fault))
  | .ok none => .ok none
  | .ok (some bytes) =>
      match LineEditor.decode bytes with
      | .ok line => .ok (some line)
      | .error fault => .error (.failure (.reading fault))

theorem lineOfAnswer_of_ok {bytes : ByteArray} {line : String}
    (decoded : LineEditor.decode bytes = .ok line) :
    lineOfAnswer (.ok (some bytes)) = .ok (some line) := by
  rw [lineOfAnswer, decoded]

theorem lineOfAnswer_of_error {bytes : ByteArray} {fault : AccessFault}
    (decoded : LineEditor.decode bytes = .error fault) :
    lineOfAnswer (.ok (some bytes)) = .error (.failure (.reading fault)) := by
  rw [lineOfAnswer, decoded]

/-- What reading a line comes to where these lines are left, and which are left then. -/
def ReadsFrom : List ByteArray → Except Stop (Option String) → List ByteArray → Prop
  | [], outcome, left => outcome = .ok none ∧ left = []
  | bytes :: rest, outcome, left => outcome = lineOfAnswer (.ok (some bytes)) ∧ left = rest

/-- A line that is read is the first of those that can be read. -/
theorem ReadsFrom.first_readable {lines left : List ByteArray} {line : String}
    (reads : ReadsFrom lines (.ok (some line)) left) :
    readableLines lines = line :: readableLines left := by
  cases lines with
  | nil => cases reads.1
  | cons bytes rest =>
      obtain ⟨outcome, rfl⟩ := reads
      cases decoded : LineEditor.decode bytes with
      | ok text =>
          rw [lineOfAnswer_of_ok decoded] at outcome
          cases outcome
          exact readableLines_cons_of_ok decoded left
      | error fault =>
          rw [lineOfAnswer_of_error decoded] at outcome
          cases outcome

theorem ReadsFrom.left_eq {lines left : List ByteArray} {found : Except Stop (Option String)}
    (reads : ReadsFrom lines found left) : left = lines.drop 1 := by
  cases lines with
  | nil => exact reads.2
  | cons bytes rest => exact reads.2

/-- Where a line can be read, it is read. -/
theorem ReadsFrom.of_readable {lines left : List ByteArray} {line : String} {rest : List String}
    {outcome : Except Stop (Option String)} (readable : readableLines lines = line :: rest)
    (reads : ReadsFrom lines outcome left) :
    outcome = .ok (some line) ∧ readableLines left = rest ∧ left.length < lines.length := by
  cases lines with
  | nil => cases readable
  | cons bytes others =>
      obtain ⟨outcome, rfl⟩ := reads
      cases decoded : LineEditor.decode bytes with
      | ok text =>
          rw [readableLines_cons_of_ok decoded] at readable
          rw [lineOfAnswer_of_ok decoded] at outcome
          cases readable
          exact ⟨outcome, rfl, Nat.lt_succ_self _⟩
      | error fault =>
          rw [readableLines_cons_of_error decoded] at readable
          cases readable

private theorem readsFrom_of_readable {lines : List ByteArray} {line : String} {rest : List String}
    (readable : readableLines lines = line :: rest) :
    ∃ bytes left, lines = bytes :: left ∧ ReadsFrom lines (.ok (some line)) left ∧
      readableLines left = rest := by
  cases lines with
  | nil => cases readable
  | cons bytes left =>
      have reads : ReadsFrom (bytes :: left) (lineOfAnswer (.ok (some bytes))) left := ⟨rfl, rfl⟩
      obtain ⟨same, others, -⟩ := reads.of_readable readable
      rw [same] at reads
      exact ⟨bytes, left, rfl, reads, others⟩

/-- Wherever the prompt is written, it is accepted. -/
def World.ShowsPrompt (world : World σ) : Prop :=
  ∀ before given after,
    world.answers (.write .output LineEditor.prompt) before given after → given = .ok ()

private theorem takes_readLine_iff {lines left : List ByteArray}
    {outcome : Except Stop (Option String)} :
    (∃ given, Takes lines .readLine given left ∧ outcome = lineOfAnswer given) ↔
      ReadsFrom lines outcome left := by
  constructor
  · rintro ⟨given, takes, rfl⟩
    cases takes with
    | line bytes rest => exact ⟨rfl, rfl⟩
    | none => exact ⟨rfl, rfl⟩
  · intro reads
    cases lines with
    | nil =>
        obtain ⟨rfl, rfl⟩ := reads
        exact ⟨_, .none, rfl⟩
    | cons bytes rest =>
        obtain ⟨rfl, rfl⟩ := reads
        exact ⟨_, .line bytes left, rfl⟩

private theorem takes_bound {lines left : List ByteArray} {count : Nat}
    (takes : Takes lines (.bound .inputLines) count left) :
    lines.length ≤ count ∧ left = lines := by
  cases takes with
  | bound enough => exact ⟨enough, rfl⟩

private theorem run_readLine :
    (LineEditor.readLine false).run = .step .readLine fun given => .done (lineOfAnswer given) := by
  refine congrArg (Program.step Call.readLine) (funext fun given => ?_)
  match given with
  | .error fault => rfl
  | .ok none => rfl
  | .ok (some bytes) =>
      change ExceptT.run (match LineEditor.decode bytes with
          | .ok line => pure (some line)
          | .error fault => Action.fail (.reading fault)) =
        .done (match LineEditor.decode bytes with
          | .ok line => .ok (some line)
          | .error fault => .error (.failure (.reading fault)))
      cases LineEditor.decode bytes with
      | ok line => rfl
      | error fault => rfl

/-- Reading a line without a prompt only takes it from the input. -/
theorem comes_readLine_iff {outcome : Except Stop (Option String)}
    {before after : σ × List ByteArray} :
    world.reading.Comes (LineEditor.readLine false).run before outcome after ↔
      world.Drifts before.1 after.1 ∧ ReadsFrom before.2 outcome after.2 := by
  rw [run_readLine, comes_step_iff, ← takes_readLine_iff]
  simp only [comes_done_iff, drifts_reading_iff]
  constructor
  · rintro ⟨asked, given, answered, ⟨drift, unread⟩, ⟨takes, same⟩, read, later, left⟩
    rw [unread, ← left] at takes
    rw [same] at later
    exact ⟨drift.trans later, given, takes, read⟩
  · rintro ⟨drift, given, takes, read⟩
    exact ⟨(after.1, before.2), given, after, ⟨drift, rfl⟩, ⟨takes, rfl⟩, read,
      Relation.ReflTransGen.refl, rfl⟩

/-- A run of reading a line takes it from the input. -/
theorem performs_readLine_reads (shows : world.ShowsPrompt) {withPrompt : Bool}
    {before after : Session × σ × List ByteArray} {outcome : Except Stop (Option String)}
    (run : world.reading.Performs (liftM (LineEditor.readLine withPrompt)) before outcome after) :
    ReadsFrom before.2.2 outcome after.2.2 := by
  have comes := (performs_lift_iff.1 run).2
  cases withPrompt with
  | false => exact (comes_readLine_iff.1 comes).2
  | true =>
      obtain ⟨asked, given, shown, drift, answers, later⟩ := comes_step_iff.1 comes
      obtain ⟨accepted, unread⟩ := (reading_answers_iff rfl).1 answers
      have left : shown.2 = before.2.2 := unread.trans (drifts_reading_iff.1 drift).2
      rw [shows _ _ _ accepted] at later
      rw [← left]
      exact (comes_readLine_iff.1 later).2

/-! ## Lines of the standard input -/

/-- A line of the standard input is read when it is its turn. -/
def Typed (world : World σ) (withPrompt : Bool) (line : String)
    (before after : Session × σ × List ByteArray) : Prop :=
  world.reading.Performs (liftM (LineEditor.readLine withPrompt)) before (.ok (some line)) after

/-- The end of the input is told of where notices are shown. -/
def tellEnd (session : Session) : Activity Unit :=
  if session.settings.showNotices then Action.notice .output "exit\n" else pure ()

/-- What happens when the lines that can be read are used up: the next is asked for in vain. -/
def endOfInput (withPrompt : Bool) : Activity Unit := do
  let session ← get
  if session.exitRequested then
    pure ()
  else
    Activity.report Session.processSignals
    let _ ← (LineEditor.readLine withPrompt : Action (Option String))
    tellEnd session

section Runs

variable {withPrompt : Bool} {closing : Activity Unit} {lines : Nat}
variable {before after : Session × σ × List ByteArray} {outcome : Except Stop Unit}

private theorem performs_endOfInput_iff_of_asked (ends : before.1.exitRequested = true) :
    world.reading.Performs (endOfInput withPrompt >>= fun _ => closing) before outcome after ↔
      world.reading.Performs closing before outcome after := by
  rw [endOfInput, bind_assoc, performs_get_bind_iff, if_pos ends, pure_bind]

/-- Where no line can be read, what is done for a line is as good as nothing. -/
theorem performs_endOfInput_iff (shows : world.ShowsPrompt)
    (goesOn : before.1.exitRequested = false) (readable : readableLines before.2.2 = [])
    (forLine : String → Activity Unit) :
    world.reading.Performs (endOfInput withPrompt >>= fun _ => closing) before outcome after ↔
      world.reading.Performs
        (Activity.report Session.processSignals >>= fun _ =>
          (liftM (LineEditor.readLine withPrompt) : Activity (Option String)) >>= fun found =>
            (match found with
              | some line => forLine line
              | none => tellEnd before.1) >>= fun _ => closing) before outcome after := by
  have ends : ¬before.1.exitRequested = true := by simp [goesOn]
  rw [endOfInput, bind_assoc, performs_get_bind_iff, if_neg ends, bind_assoc]
  refine performs_bind_congr fun _ told signals => ?_
  rw [bind_assoc]
  refine performs_bind_congr fun found fetched run => ?_
  have unread : told.2.2 = before.2.2 :=
    (Session.processSignals_makes.performs_reading_iff.1 signals).2
  cases found with
  | none => rfl
  | some line =>
      have reads := (performs_readLine_reads shows run).first_readable
      rw [unread, readable] at reads
      cases reads

/-- Where a line can be read, reading comes to that line. -/
theorem performs_readLine_bind_iff (shows : world.ShowsPrompt) {line : String} {rest : List String}
    (readable : readableLines before.2.2 = line :: rest) {next : Option String → Activity Unit} :
    world.reading.Performs
        ((liftM (LineEditor.readLine withPrompt) : Activity (Option String)) >>= next) before
        outcome
        after ↔
      ∃ fetched, Typed world withPrompt line before fetched ∧
        world.reading.Performs (next (some line)) fetched outcome after := by
  rw [performs_bind_iff]
  constructor
  · rintro (⟨found, fetched, run, later⟩ | ⟨stop, -, run⟩)
    · obtain ⟨same, -⟩ := (performs_readLine_reads shows run).of_readable readable
      cases same
      exact ⟨fetched, run, later⟩
    · cases ((performs_readLine_reads shows run).of_readable readable).1
  · rintro ⟨fetched, run, later⟩
    exact .inl ⟨some line, fetched, run, later⟩

/-- A line that was read leaves the others. -/
theorem Typed.leaves (shows : world.ShowsPrompt) {line : String} {rest : List String}
    {told fetched : Session × σ × List ByteArray}
    (readable : readableLines told.2.2 = line :: rest)
    (typed : Typed world withPrompt line told fetched) :
    readableLines fetched.2.2 = rest ∧ fetched.2.2.length < told.2.2.length :=
  ((performs_readLine_reads shows typed).of_readable readable).2

/-- The runs of the lines of the standard input are the courses through those that can be read. -/
theorem performs_runInputLines_iff (shows : world.ShowsPrompt)
    (enough : before.2.2.length < lines) :
    world.reading.Performs (Session.runInputLines withPrompt lines >>= fun _ => closing) before
        outcome after ↔
      ∃ performed, RunsThrough world.reading (Typed world withPrompt)
        (endOfInput withPrompt >>= fun _ => closing) (readableLines before.2.2) performed before
        outcome after := by
  induction lines generalizing before with
  | zero => exact absurd enough (Nat.not_lt_zero _)
  | succ lines inductionHypothesis =>
      rw [Session.runInputLines, bind_assoc, performs_get_bind_iff]
      by_cases ends : before.1.exitRequested = true
      · rw [if_pos ends, pure_bind]
        simp only [runsThrough_iff_of_asked ends, exists_eq_left]
        exact (performs_endOfInput_iff_of_asked ends).symm
      · have goesOn : before.1.exitRequested = false := by simpa using ends
        rw [if_neg ends, bind_assoc]
        simp only [bind_assoc]
        cases readable : readableLines before.2.2 with
        | nil =>
            simp only [runsThrough_nil_iff, exists_eq_left]
            exact (performs_endOfInput_iff shows goesOn readable _).symm
        | cons line rest =>
            -- Neither the signals nor the line itself take away from what is left of the input.
            have unread : ∀ {told}, world.reading.Performs
                (Activity.report Session.processSignals) before (.ok ()) told →
                told.2.2 = before.2.2 := by
              intro told signals
              exact (Session.processSignals_makes.performs_reading_iff.1 signals).2
            refine performs_turn_iff goesOn
              (Session.runInputLines withPrompt lines >>= fun _ => closing)
              (fun told signals => ?_) ?_
            · rw [← unread signals] at readable
              rw [performs_readLine_bind_iff shows readable, bind_assoc]
            · intro told fetched ran signals fetch runs
              rw [← unread signals] at readable enough
              obtain ⟨left, shorter⟩ := fetch.leaves shows readable
              rw [← ((Session.runLine_makes line).performs_reading_iff.1 runs).2] at left shorter
              rw [← left]
              exact inductionHypothesis (by omega)

/-- A run of a session through its standard input, once the kind of terminal was looked at. -/
theorem performs_runInput_iff (shows : world.ShowsPrompt) :
    world.reading.Performs Session.runInput before outcome after ↔
      ∃ asked terminal answered performed, world.reading.Drifts before.2 asked ∧
        world.reading.answers (.environment "TERM") asked terminal answered ∧
        RunsThrough world.reading (Typed world (LineEditor.showsPrompt terminal))
          (endOfInput (LineEditor.showsPrompt terminal) >>= fun _ => Session.finish)
          (readableLines before.2.2) performed (before.1, answered) outcome after := by
  have unread : ∀ {asked terminal answered}, world.reading.Drifts before.2 asked →
      world.reading.answers (.environment "TERM") asked terminal answered →
      answered.2 = before.2.2 := by
    intro asked terminal answered drift answers
    exact ((reading_answers_iff rfl).1 answers).2.trans (drifts_reading_iff.1 drift).2
  rw [Session.runInput, performs_ask_bind_iff]
  constructor
  · rintro ⟨asked, terminal, answered, drift, answers, later⟩
    obtain ⟨bounding, count, bounded, wait, ⟨takes, same⟩, later⟩ := performs_ask_bind_iff.1 later
    obtain ⟨enough, all⟩ := takes_bound takes
    have waiting : world.reading.Drifts answered bounded := by
      obtain rfl : bounded = bounding := Prod.ext same all
      exact wait
    have later : world.reading.Performs
        (Session.runInputLines (LineEditor.showsPrompt terminal) (count + 1) >>=
          fun _ => Session.finish) (before.1, answered) outcome after :=
      Comes.of_drifts later waiting
    have enough : ((before.1, answered) : Session × σ × List ByteArray).2.2.length < count + 1 := by
      have waited : bounding.2 = answered.2 := (drifts_reading_iff.1 wait).2
      rw [waited] at enough
      exact Nat.lt_succ_of_le enough
    obtain ⟨performed, through⟩ := (performs_runInputLines_iff shows enough).1 later
    rw [← unread drift answers]
    exact ⟨asked, terminal, answered, performed, drift, answers, through⟩
  · rintro ⟨asked, terminal, answered, performed, drift, answers, through⟩
    refine ⟨asked, terminal, answered, drift, answers, performs_ask_bind_iff.2 ?_⟩
    refine ⟨answered, answered.2.length, answered, Relation.ReflTransGen.refl,
      ⟨.bound (Nat.le_refl _), rfl⟩, ?_⟩
    have enough : ((before.1, answered) : Session × σ × List ByteArray).2.2.length <
        answered.2.length + 1 := Nat.lt_succ_self _
    rw [← unread drift answers] at through
    exact (performs_runInputLines_iff shows enough).2 ⟨performed, through⟩

end Runs

/-- A course takes from the input the lines that it runs. -/
theorem Course.left_eq (shows : world.ShowsPrompt) {withPrompt : Bool}
    {lines performed : List String} {before after : Session × σ × List ByteArray}
    {outcome : Except Stop Unit}
    (course : Course world.reading (Typed world withPrompt) lines performed before outcome after) :
    after.2.2 = before.2.2.drop performed.length := by
  have taken : ∀ {line told fetched ran} {outcome : Except Stop Unit}
      {before : Session × σ × List ByteArray},
      world.reading.Performs (Activity.report Session.processSignals) before (.ok ()) told →
      Typed world withPrompt line told fetched →
      world.reading.Performs (Session.runLine line) fetched outcome ran →
      ran.2.2 = before.2.2.drop 1 := by
    intro line told fetched ran outcome before signals fetch runs
    rw [((Session.runLine_makes _).performs_reading_iff.1 runs).2,
      (performs_readLine_reads shows fetch).left_eq,
      (Session.processSignals_makes.performs_reading_iff.1 signals).2]
  induction course with
  | exhausted => rfl
  | asked => rfl
  | interrupted _ signals => exact (Session.processSignals_makes.performs_reading_iff.1 signals).2
  | stopped _ signals fetch runs => exact taken signals fetch runs
  | ran _ signals fetch runs _ inductionHypothesis =>
      rw [inductionHypothesis, taken signals fetch runs, List.drop_drop, List.length_cons,
        Nat.add_comm]

/-! ## The same courses -/

/-- Reading after the signals is for the rest of the world a part of acting on them. -/
theorem Typed.atHand {line : String} {before told fetched : Session × σ × List ByteArray}
    (signals : world.reading.Performs (Activity.report Session.processSignals) before (.ok ()) told)
    (typed : Typed world false line told fetched) :
    world.Performs (Activity.report Session.processSignals) (withoutInput before) (.ok ())
        (withoutInput fetched) ∧
      ReadsFrom before.2.2 (.ok (some line)) fetched.2.2 := by
  obtain ⟨signals, unread⟩ := Session.processSignals_makes.performs_reading_iff.1 signals
  obtain ⟨same, comes⟩ := performs_lift_iff.1 typed
  obtain ⟨drift, reads⟩ := comes_readLine_iff.1 comes
  rw [unread] at reads
  have later := Performs.drifts signals drift
  rw [← same] at later
  exact ⟨later, reads⟩

private theorem typed_of_readsFrom {line : String} {told : Session × σ}
    {lines left : List ByteArray} (reads : ReadsFrom lines (.ok (some line)) left) :
    Typed world false line (told.1, told.2, lines) (told.1, told.2, left) :=
  performs_lift_iff.2 ⟨rfl, comes_readLine_iff.2 ⟨Relation.ReflTransGen.refl, reads⟩⟩

/-- Where no prompt is shown, a course through lines that are read is one through lines at hand. -/
theorem Course.atHand {lines performed : List String} {before after : Session × σ × List ByteArray}
    {outcome : Except Stop Unit}
    (course : Course world.reading (Typed world false) lines performed before outcome after) :
    Course world AtHand lines performed (withoutInput before) outcome (withoutInput after) := by
  induction course with
  | exhausted => exact .exhausted
  | asked ends => exact .asked ends
  | interrupted goesOn signals =>
      exact .interrupted goesOn (Session.processSignals_makes.performs_reading_iff.1 signals).1
  | stopped goesOn signals fetch runs =>
      exact .stopped goesOn (fetch.atHand signals).1 rfl
        ((Session.runLine_makes _).performs_reading_iff.1 runs).1
  | ran goesOn signals fetch runs others inductionHypothesis =>
      exact .ran goesOn (fetch.atHand signals).1 rfl
        ((Session.runLine_makes _).performs_reading_iff.1 runs).1 inductionHypothesis

/-- A course through lines at hand is one through lines that are read without a prompt. -/
theorem Course.typed {lines performed : List String} {before after : Session × σ}
    {outcome : Except Stop Unit} (course : Course world AtHand lines performed before outcome after)
    {left : List ByteArray} (readable : readableLines left = lines) :
    Course world.reading (Typed world false) lines performed (before.1, before.2, left) outcome
      (after.1, after.2, left.drop performed.length) := by
  induction course generalizing left with
  | exhausted => exact .exhausted
  | asked ends => exact .asked ends
  | interrupted goesOn signals =>
      exact .interrupted goesOn (Session.processSignals_makes.performs_reading signals left)
  | stopped goesOn signals fetch runs =>
      obtain ⟨bytes, others, rfl, reads, -⟩ := readsFrom_of_readable readable
      cases fetch
      exact .stopped goesOn (Session.processSignals_makes.performs_reading signals _)
        (typed_of_readsFrom reads) ((Session.runLine_makes _).performs_reading runs _)
  | ran goesOn signals fetch runs others inductionHypothesis =>
      obtain ⟨bytes, others, rfl, reads, left⟩ := readsFrom_of_readable readable
      cases fetch
      exact .ran goesOn (Session.processSignals_makes.performs_reading signals _)
        (typed_of_readsFrom reads) ((Session.runLine_makes _).performs_reading runs _)
        (inductionHypothesis left)

end Reading

end JobControl
