import JobControl.Proofs.InputEnds
/-!
# The same lines from a text and from the standard input

A session that is given a text, and one that finds the text in its standard input, go through the
same lines: those of the text, until one of them asks the session to end or stops it.
-/

namespace JobControl

open World

variable {σ : Type}

/-- The lines that were run are the first ones, and they are all of them unless the session was
asked to end or stopped; only what is final stops it. -/
structure RunsInTurn (lines performed : List String) (outcome : Except Stop Unit)
    (reached : Session) : Prop where
  inOrder : performed <+: lines
  complete : performed = lines ∨ reached.exitRequested = true ∨ ∃ stop, outcome = .error stop
  final : ∀ stop, outcome = .error stop → stop.isFinal = true

private theorem Course.runsInTurn {world : World σ}
    {fetches : String → Session × σ → Session × σ → Prop}
    {lines performed : List String} {before after : Session × σ} {outcome : Except Stop Unit}
    (course : Course world fetches lines performed before outcome after) :
    RunsInTurn lines performed outcome after.1 where
  inOrder := course.isPrefix
  complete := course.all_or_ended
  final _ stops := course.isFinal stops

/-- Whether a session is given a text or finds it in its standard input, its runs are the courses
through the lines of the text, in which the signals are acted on once before each line.  Each mode
ends in its own way after its course.  Where no prompt is shown, the two modes have the same
courses; and no course is cut short but by a request to end or by what is final. -/
theorem text_and_input_run_same_lines {world : World σ} (shows : world.ShowsPrompt) {text : String}
    (none : '\x08' ∉ text.toList) (session : Session) (state : σ) (outcome : Except Stop Unit) :
    (∀ after, world.Performs (Session.runText text) (session, state) outcome after ↔
      ∃ performed, RunsThrough world AtHand Session.finish (Text.lines text) performed
        (session, state) outcome after) ∧
    (∀ after, world.reading.Performs Session.runInput
        (session, state, inputLines text.toUTF8) outcome after ↔
      ∃ asked terminal answered performed,
        world.reading.Drifts (state, inputLines text.toUTF8) asked ∧
        world.reading.answers (.environment "TERM") asked terminal answered ∧
        RunsThrough world.reading (Typed world (LineEditor.showsPrompt terminal))
          (endOfInput (LineEditor.showsPrompt terminal) >>= fun _ => Session.finish)
          (Text.lines text) performed (session, answered) outcome after) ∧
    (∀ performed reached,
      Course world AtHand (Text.lines text) performed (session, state) outcome reached ↔
        ∃ left, Course world.reading (Typed world false) (Text.lines text) performed
          (session, state, inputLines text.toUTF8) outcome (reached.1, reached.2, left)) ∧
    (∀ performed reached,
      Course world AtHand (Text.lines text) performed (session, state) outcome reached →
        RunsInTurn (Text.lines text) performed outcome reached.1) ∧
    ∀ withPrompt opened performed reached,
      Course world.reading (Typed world withPrompt) (Text.lines text) performed
          (session, opened) outcome reached →
        RunsInTurn (Text.lines text) performed outcome reached.1 := by
  have sameLines : readableLines (inputLines text.toUTF8) = Text.lines text :=
    readableLines_inputLines none
  refine ⟨fun after => performs_runLines_iff, fun after => ?_, fun performed reached => ?_,
    fun _ _ course => course.runsInTurn, fun _ _ _ _ course => course.runsInTurn⟩
  · rw [performs_runInput_iff shows, sameLines]
  · constructor
    · exact fun course => ⟨_, course.typed sameLines⟩
    · rintro ⟨left, course⟩
      exact course.atHand

private theorem runLine_exit : Session.runLine "exit" = Activity.report (Session.exit .output) := by
  have parsed : Job.parse "exit" =
      .ok (some { input := "exit", first := { program := "exit" } }) := by decide +kernel
  have operand : Builtin.exit.operand? [] = .ok none := by decide +kernel
  have named : Builtin.ofName? "exit" = some .exit := rfl
  unfold Session.runLine
  rw [parsed, Session.runParsed, Session.runJob]
  simp only [Job.program, named, Builtin.run, operand]
  rfl

/-- A session that is given these lines runs only the first of them, which asks it to end; and so
does one that reads them. -/
theorem exit_ends_text_and_input :
    Kernel.obliging.ShowsPrompt ∧ '\x08' ∉ "exit\nbglist\n".toList ∧
      ∃ reached left,
        Course Kernel.obliging AtHand (Text.lines "exit\nbglist\n") ["exit"]
          (Session.ofSettings {}, {}) (.ok ()) reached ∧
        Course Kernel.obliging.reading (Typed Kernel.obliging false) (Text.lines "exit\nbglist\n")
          ["exit"] (Session.ofSettings {}, {}, inputLines "exit\nbglist\n".toUTF8) (.ok ())
          (reached.1, reached.2, left) := by
  have none : '\x08' ∉ "exit\nbglist\n".toList := by decide
  have lines : Text.lines "exit\nbglist\n" = ["exit", "bglist"] := by decide
  have quiet : ({} : Kernel).reapWanted = false := rfl
  obtain ⟨kernel, signals, -⟩ := obliging_without_signals (Session.ofSettings {}) quiet
  have runs : Kernel.obliging.Performs (Session.runLine "exit") (Session.ofSettings {}, kernel)
      (.ok ()) ({ Session.ofSettings {} with exitRequested := true }, kernel) := by
    rw [runLine_exit]
    exact Relation.ReflTransGen.refl
  have course : Course Kernel.obliging AtHand ["exit", "bglist"] ["exit"]
      (Session.ofSettings {}, {}) (.ok ())
      ({ Session.ofSettings {} with exitRequested := true }, kernel) :=
    .ran rfl signals rfl runs (.asked rfl)
  rw [← lines] at course
  obtain ⟨left, typed⟩ := ((text_and_input_run_same_lines obliging_acceptsOutput.showsPrompt none
    (Session.ofSettings {}) {} (.ok ())).2.2.1 ["exit"] _).1 course
  exact ⟨obliging_acceptsOutput.showsPrompt, none, _, left, course, typed⟩

end JobControl
