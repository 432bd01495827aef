import JobControl.Session.Run
import JobControl.Proofs.Promises
import JobControl.Proofs.World.Runs
/-!
# The course of a session through its lines

Lines are run in order, each after the signals were acted on once and the line was fetched, until
one of them asks the session to end or stops it.  What is run is said apart from where the lines
come from: a text has them at hand, and from the standard input they are read one by one.
-/

namespace JobControl

open World

variable {σ α : Type}

/-- The stops of an activity are those of its runs. -/
theorem Activity.Makes.stop {allowed : Call → Prop} {stops : Stop → Prop} {activity : Activity α}
    (makes : activity.Makes allowed stops) {world : World σ} {before after : Session × σ}
    {stop : Stop} (run : world.Performs activity before (.error stop) after) : stops stop := by
  have ensured : world.Ensures (fun _ _ => True) (activity.perform before.1)
      (fun reached _ => ∀ stop, reached.1 = .error stop → stops stop) before.2 :=
    (makes before.1).result_good before.2
  obtain ⟨_, _, good⟩ := ensured.result run
  exact good stop rfl

/-- How a session goes through lines: those that it has before it, those of them that it runs, and
what comes of it.  How a line gets to the session is said by `fetches`. -/
inductive Course (world : World σ) (fetches : String → Session × σ → Session × σ → Prop) :
    List String → List String → Session × σ → Except Stop Unit → Session × σ → Prop where
  | exhausted {reached : Session × σ} :
      Course world fetches [] [] reached (.ok ()) reached
  | asked {lines : List String} {reached : Session × σ}
      (ends : reached.1.exitRequested = true) :
      Course world fetches lines [] reached (.ok ()) reached
  /-- Acting on signals stops the session. -/
  | interrupted {line : String} {rest : List String} {before after : Session × σ} {stop : Stop}
      (goesOn : before.1.exitRequested = false)
      (signals : world.Performs (Activity.report Session.processSignals) before (.error stop)
        after) :
      Course world fetches (line :: rest) [] before (.error stop) after
  /-- The line stops the session. -/
  | stopped {line : String} {rest : List String} {before told fetched after : Session × σ}
      {stop : Stop} (goesOn : before.1.exitRequested = false)
      (signals : world.Performs (Activity.report Session.processSignals) before (.ok ()) told)
      (fetch : fetches line told fetched)
      (runs : world.Performs (Session.runLine line) fetched (.error stop) after) :
      Course world fetches (line :: rest) [line] before (.error stop) after
  | ran {line : String} {rest later : List String} {before told fetched ran after : Session × σ}
      {outcome : Except Stop Unit} (goesOn : before.1.exitRequested = false)
      (signals : world.Performs (Activity.report Session.processSignals) before (.ok ()) told)
      (fetch : fetches line told fetched)
      (runs : world.Performs (Session.runLine line) fetched (.ok ()) ran)
      (others : Course world fetches rest later ran outcome after) :
      Course world fetches (line :: rest) (line :: later) before outcome after

namespace Course

variable {world : World σ} {fetches : String → Session × σ → Session × σ → Prop}
variable {lines performed : List String} {before after : Session × σ} {outcome : Except Stop Unit}

/-- The lines that are run are the first ones. -/
theorem isPrefix (course : Course world fetches lines performed before outcome after) :
    performed <+: lines := by
  induction course with
  | exhausted => exact List.prefix_refl []
  | asked => exact List.nil_prefix
  | interrupted => exact List.nil_prefix
  | stopped => exact ⟨_, rfl⟩
  | ran _ _ _ _ _ inductionHypothesis => exact (List.prefix_cons_inj _).2 inductionHypothesis

/-- Lines are left out only if the session was asked to end or stopped. -/
theorem all_or_ended (course : Course world fetches lines performed before outcome after) :
    performed = lines ∨ after.1.exitRequested = true ∨ ∃ stop, outcome = .error stop := by
  induction course with
  | exhausted => exact .inl rfl
  | asked ends => exact .inr (.inl ends)
  | interrupted => exact .inr (.inr ⟨_, rfl⟩)
  | stopped => exact .inr (.inr ⟨_, rfl⟩)
  | ran _ _ _ _ _ inductionHypothesis =>
      obtain all | ended := inductionHypothesis
      · exact .inl (congrArg _ all)
      · exact .inr ended

/-- Only a fatal failure, or a notice that could not be written, stops the session. -/
theorem isFinal {stop : Stop} (course : Course world fetches lines performed before outcome after)
    (stops : outcome = .error stop) : stop.isFinal = true := by
  induction course with
  | exhausted => cases stops
  | asked => cases stops
  | interrupted _ signals =>
      cases stops
      exact Session.processSignals_makes.stop signals
  | stopped _ _ _ runs =>
      cases stops
      exact (Session.runLine_makes _).stop runs
  | ran _ _ _ _ _ inductionHypothesis => exact inductionHypothesis stops

end Course

/-! ## Runs through lines -/

/-- A run that goes through lines and then closes, unless it has stopped. -/
def RunsThrough (world : World σ) (fetches : String → Session × σ → Session × σ → Prop)
    (closing : Activity Unit) (lines performed : List String) (before : Session × σ)
    (outcome : Except Stop Unit) (after : Session × σ) : Prop :=
  (∃ reached, Course world fetches lines performed before (.ok ()) reached ∧
    world.Performs closing reached outcome after) ∨
  ∃ stop, outcome = .error stop ∧ Course world fetches lines performed before (.error stop) after

section RunsThrough

variable {world : World σ} {fetches : String → Session × σ → Session × σ → Prop}
variable {closing : Activity Unit} {line : String} {lines rest performed : List String}
variable {before after : Session × σ} {outcome : Except Stop Unit}

theorem runsThrough_nil_iff :
    RunsThrough world fetches closing [] performed before outcome after ↔
      performed = [] ∧ world.Performs closing before outcome after := by
  constructor
  · rintro (⟨reached, course, closes⟩ | ⟨stop, rfl, course⟩)
    · cases course with
      | exhausted => exact ⟨rfl, closes⟩
      | asked => exact ⟨rfl, closes⟩
    · cases course
  · rintro ⟨rfl, closes⟩
    exact .inl ⟨before, .exhausted, closes⟩

theorem runsThrough_iff_of_asked (ends : before.1.exitRequested = true) :
    RunsThrough world fetches closing lines performed before outcome after ↔
      performed = [] ∧ world.Performs closing before outcome after := by
  constructor
  · rintro (⟨reached, course, closes⟩ | ⟨stop, rfl, course⟩)
    · cases course with
      | exhausted => exact ⟨rfl, closes⟩
      | asked => exact ⟨rfl, closes⟩
      | ran goesOn => simp [goesOn] at ends
    · cases course with
      | interrupted goesOn => simp [goesOn] at ends
      | stopped goesOn => simp [goesOn] at ends
      | ran goesOn => simp [goesOn] at ends
  · rintro ⟨rfl, closes⟩
    exact .inl ⟨before, .asked ends, closes⟩

private theorem runsThrough_cons_iff (goesOn : before.1.exitRequested = false) :
    RunsThrough world fetches closing (line :: rest) performed before outcome after ↔
      (∃ stop, performed = [] ∧ outcome = .error stop ∧
        world.Performs (Activity.report Session.processSignals) before (.error stop) after) ∨
      ∃ told fetched,
        world.Performs (Activity.report Session.processSignals) before (.ok ()) told ∧
        fetches line told fetched ∧
        ((∃ stop, performed = [line] ∧ outcome = .error stop ∧
            world.Performs (Session.runLine line) fetched (.error stop) after) ∨
          ∃ ran later, performed = line :: later ∧
            world.Performs (Session.runLine line) fetched (.ok ()) ran ∧
            RunsThrough world fetches closing rest later ran outcome after) := by
  constructor
  · rintro (⟨reached, course, closes⟩ | ⟨stop, rfl, course⟩)
    · cases course with
      | asked ends => simp [goesOn] at ends
      | ran _ signals fetch runs others =>
          exact .inr ⟨_, _, signals, fetch, .inr ⟨_, _, rfl, runs, .inl ⟨_, others, closes⟩⟩⟩
    · cases course with
      | interrupted _ signals => exact .inl ⟨_, rfl, rfl, signals⟩
      | stopped _ signals fetch runs =>
          exact .inr ⟨_, _, signals, fetch, .inl ⟨_, rfl, rfl, runs⟩⟩
      | ran _ signals fetch runs others =>
          exact .inr ⟨_, _, signals, fetch, .inr ⟨_, _, rfl, runs, .inr ⟨_, rfl, others⟩⟩⟩
  · rintro (⟨stop, rfl, rfl, signals⟩ | ⟨told, fetched, signals, fetch, ran⟩)
    · exact .inr ⟨stop, rfl, .interrupted goesOn signals⟩
    · obtain ⟨stop, rfl, rfl, runs⟩ | ⟨ran, later, rfl, runs, others⟩ := ran
      · exact .inr ⟨stop, rfl, .stopped goesOn signals fetch runs⟩
      · obtain ⟨reached, course, closes⟩ | ⟨stop, rfl, course⟩ := others
        · exact .inl ⟨reached, .ran goesOn signals fetch runs course, closes⟩
        · exact .inr ⟨stop, rfl, .ran goesOn signals fetch runs course⟩

/-- A turn of a loop through lines: signals are acted on, the next line is fetched and run, and the
loop goes on with the others. -/
theorem performs_turn_iff (goesOn : before.1.exitRequested = false) {turn : Activity Unit}
    (later : Activity Unit)
    (fetch : ∀ told, world.Performs (Activity.report Session.processSignals) before (.ok ()) told →
      (world.Performs turn told outcome after ↔ ∃ fetched, fetches line told fetched ∧
        world.Performs (Session.runLine line >>= fun _ => later) fetched outcome after))
    (others : ∀ told fetched ran,
      world.Performs (Activity.report Session.processSignals) before (.ok ()) told →
      fetches line told fetched → world.Performs (Session.runLine line) fetched (.ok ()) ran →
      (world.Performs later ran outcome after ↔
        ∃ performed, RunsThrough world fetches closing rest performed ran outcome after)) :
    world.Performs (Activity.report Session.processSignals >>= fun _ => turn) before outcome after ↔
      ∃ performed,
        RunsThrough world fetches closing (line :: rest) performed before outcome after := by
  rw [performs_bind_iff]
  simp only [runsThrough_cons_iff goesOn]
  constructor
  · rintro (⟨⟨⟩, told, signals, turned⟩ | ⟨stop, rfl, signals⟩)
    · obtain ⟨fetched, fetching, turned⟩ := (fetch told signals).1 turned
      obtain ⟨⟨⟩, ran, runs, rested⟩ | ⟨stop, rfl, runs⟩ := performs_bind_iff.1 turned
      · obtain ⟨performed, through⟩ := (others told fetched ran signals fetching runs).1 rested
        exact ⟨_, .inr ⟨told, fetched, signals, fetching, .inr ⟨ran, _, rfl, runs, through⟩⟩⟩
      · exact ⟨_, .inr ⟨told, fetched, signals, fetching, .inl ⟨stop, rfl, rfl, runs⟩⟩⟩
    · exact ⟨_, .inl ⟨stop, rfl, rfl, signals⟩⟩
  · rintro ⟨performed, ⟨stop, -, rfl, signals⟩ | ⟨told, fetched, signals, fetching, ran⟩⟩
    · exact .inr ⟨stop, rfl, signals⟩
    · refine .inl ⟨(), told, signals, (fetch told signals).2 ⟨fetched, fetching, ?_⟩⟩
      rw [performs_bind_iff]
      obtain ⟨stop, -, rfl, runs⟩ | ⟨ran, tail, -, runs, through⟩ := ran
      · exact .inr ⟨stop, rfl, runs⟩
      · have rested := (others told fetched ran signals fetching runs).2 ⟨tail, through⟩
        exact .inl ⟨(), ran, runs, rested⟩

/-! ## Lines of a text -/

/-- A line that is at hand is fetched without doing anything. -/
def AtHand (_ : String) (before after : Session × σ) : Prop :=
  after = before

/-- The runs of lines that are at hand are the courses through them. -/
theorem performs_runLines_iff :
    world.Performs (Session.runLines lines >>= fun _ => closing) before outcome after ↔
      ∃ performed, RunsThrough world AtHand closing lines performed before outcome after := by
  induction lines generalizing before with
  | nil =>
      rw [Session.runLines, pure_bind]
      simp only [runsThrough_nil_iff, exists_eq_left]
  | cons line rest inductionHypothesis =>
      rw [Session.runLines, bind_assoc, performs_get_bind_iff]
      by_cases ends : before.1.exitRequested = true
      · rw [if_pos ends, pure_bind]
        simp only [runsThrough_iff_of_asked ends, exists_eq_left]
      · have goesOn : before.1.exitRequested = false := by simpa using ends
        rw [if_neg ends, bind_assoc]
        refine performs_turn_iff goesOn _ (fun told _ => ?_) fun _ _ _ _ _ _ => inductionHypothesis
        simp only [AtHand, exists_eq_left, bind_assoc]

end RunsThrough

end JobControl
