import JobControl.Proofs.FailedJobs.Cleaning
/-!
# Failed builtins

A builtin that fails has changed nothing, as long as the session can write its output and the
directory that it has just entered has a name: the failures come before the first change.
-/

namespace JobControl

open Relation World

/-! ## What a session counts on -/

/-- Output is written, and the directory that was just entered has a name. -/
def Kernel.Obliges : (call : Call) → Kernel → call.Answer → Prop
  | .write .output _, _, given => given = .ok ()
  | .currentDirectory, before, given =>
      (before.calls.head?.bind Answered.entered?).isSome = true →
        ∃ directory, given = .ok directory
  | _, _, _ => True

/-- The kernel that does what a session counts on. -/
def Kernel.obliging : World Kernel :=
  Kernel.telling.restrict Kernel.Obliges

section Obliging

variable {α : Type} {kernel : Kernel} {session : Session}

private theorem write_succeeds (text : String) :
    Kernel.obliging.Ensures (fun _ _ => True) (Action.write .output text).run
      (fun outcome _ => outcome = .ok ()) kernel := by
  unfold Action.write
  rw [ensures_run_bind, ensures_run_ask]
  intro asked _
  refine ⟨trivial, ?_⟩
  rintro given after ⟨-, granted⟩
  obtain rfl : given = .ok () := granted
  exact rfl

private theorem listJobs_succeeds (entries : List Entry) :
    Kernel.obliging.Ensures (fun _ _ => True) (Builtin.listJobs .output entries).run
      (fun outcome _ => outcome = .ok ()) kernel := by
  induction entries generalizing kernel with
  | nil => exact rfl
  | cons entry rest inductionHypothesis =>
      rw [Builtin.listJobs, ensures_run_bind]
      refine (write_succeeds _).mono ?_
      rintro _ after rfl
      exact inductionHypothesis

private theorem announceTerminated_succeeds (entries : List Entry) :
    Kernel.obliging.Ensures (fun _ _ => True) (Session.announceTerminated .output entries).run
      (fun outcome _ => outcome = .ok ()) kernel := by
  induction entries generalizing kernel with
  | nil => exact rfl
  | cons entry rest inductionHypothesis =>
      rw [Session.announceTerminated, ensures_run_bind]
      refine (write_succeeds _).mono ?_
      rintro _ after rfl
      exact inductionHypothesis

/-- Asking for places goes nowhere and starts nothing. -/
theorem keeps_of_isOfPlaces {action : Action α} (places : action.IsOfPlaces) (kernel : Kernel) :
    Kernel.telling.Ensures (fun _ _ => True) action.run
      (fun _ after => after.entered = kernel.entered ∧
        after.attempts.length = kernel.attempts.length) kernel := by
  have stays := places.mono Call.staysPut_of_isOfPlaces fun _ tame => tame
  have plain := places.isPlain Call.isPlain_of_isOfPlaces
  refine ((Program.Within.entered_eq stays kernel).and (ages_of_plain plain kernel)).mono ?_
  exact fun _ after reached => ⟨reached.1, reached.2.length_eq⟩

private theorem changeDirectory_fails_cleanly (operand : Option String) :
    Kernel.obliging.Achieves (fun _ _ => True) (Builtin.changeDirectory operand .output) session
      (FailsCleanly session kernel) kernel := by
  unfold Builtin.changeDirectory
  rw [achieves_bind, achieves_get, afterActivity_ok, achieves_bind, achieves_lift]
  have chooses := keeps_of_isOfPlaces
    (Builtin.directoryToEnter_isOfPlaces session.previousDirectory operand) kernel
  refine (chooses.restrict Kernel.Obliges).mono ?_
  rintro (stop | directory) chosen ⟨directoryChosen, lengthChosen⟩
  · exact FailsCleanly.of_length _ directoryChosen lengthChosen
  rw [afterActivity_ok, achieves_bind, achieves_lift]
  have asks := keeps_of_isOfPlaces Builtin.currentDirectory_isOfPlaces chosen
  refine (asks.restrict Kernel.Obliges).mono ?_
  rintro (stop | before) known ⟨directoryKnown, lengthKnown⟩
  · exact FailsCleanly.of_length _ (directoryKnown.trans directoryChosen)
      (lengthKnown.trans lengthChosen)
  rw [afterActivity_ok, achieves_bind, achieves_lift, ensures_run_ask]
  intro asked drifts
  refine ⟨trivial, ?_⟩
  rintro given after ⟨⟨answered, responds, rfl⟩, -⟩
  obtain rfl : answered = asked := responds
  rw [afterActivity_ok]
  cases given with
  | error fault =>
      refine FailsCleanly.of_length _ ?_ ?_
      · have stays := Kernel.entered_of_drifts drifts
        exact stays.trans (directoryKnown.trans directoryChosen)
      · have same := (Kernel.ages_of_drifts drifts).length_eq
        exact same.trans (lengthKnown.trans lengthChosen)
  | ok _ =>
      -- The directory has been entered: from here on nothing can fail any more.
      dsimp only
      rw [achieves_bind, achieves_set, afterActivity_ok, achieves_bind, achieves_lift]
      unfold Builtin.currentDirectory
      rw [ensures_run_bind, ensures_run_ask]
      intro naming namingDrifts
      refine ⟨trivial, ?_⟩
      rintro now named ⟨-, granted⟩
      have calls := Kernel.calls_of_drifts namingDrifts
      obtain ⟨path, rfl⟩ : ∃ path, now = .ok path := by
        refine granted ?_
        rw [calls]
        rfl
      rw [afterAction_ok]
      exact (achieves_lift _ _ _ _).2 ((write_succeeds _).mono fun outcome _ done =>
        done ▸ FailsCleanly.of_ok ())

private theorem exit_fails_cleanly :
    Kernel.obliging.Achieves (fun _ _ => True) (Session.exit .output) session
      (FailsCleanly session kernel) kernel := by
  unfold Session.exit
  rw [achieves_bind, achieves_get, afterActivity_ok]
  dsimp only
  rw [achieves_bind, achieves_set, afterActivity_ok, achieves_bind, achieves_lift,
    ensures_run_lift]
  refine (ensures_later _ kernel).mono fun _ signalled _ => ?_
  rw [afterActivity_ok, achieves_bind, achieves_lift]
  refine (announceTerminated_succeeds session.jobs.entries).mono ?_
  rintro _ after rfl
  rw [afterActivity_ok, achieves_modify]
  exact FailsCleanly.of_ok _

private theorem bringToForeground_fails_cleanly (pid : Option Pid) :
    Kernel.obliging.Achieves (fun _ _ => True) (Session.bringToForeground pid .output) session
      (FailsCleanly session kernel) kernel := by
  unfold Session.bringToForeground
  rw [achieves_bind, achieves_get, afterActivity_ok]
  cases Session.takeJob session.jobs pid with
  | error failure => exact FailsCleanly.of_length _ rfl rfl
  | ok taken =>
      obtain ⟨entry, jobs⟩ := taken
      dsimp only
      rw [achieves_bind, achieves_set, afterActivity_ok, achieves_bind, achieves_lift]
      refine (write_succeeds _).mono ?_
      rintro _ shown rfl
      rw [afterActivity_ok, achieves_bind, achieves_lift]
      have waits : entry.wait.Makes (fun _ => True) fun stop => stop.isFatal = true :=
        waitForProcesses_makes (by trivial) (fun _ => trivial) (fun _ => rfl) _ _ _
      refine (Program.Within.result_good waits shown).mono ?_
      rintro (stop | status) after fatal
      · exact FailsCleanly.of_fatal (fatal stop rfl)
      · rw [afterActivity_ok]
        cases status with
        | none => exact FailsCleanly.of_ok _
        | some status => exact FailsCleanly.of_ok _

theorem builtin_fails_cleanly (builtin : Builtin) (arguments : List String) :
    Kernel.obliging.Achieves (fun _ _ => True) (builtin.run arguments .output) session
      (FailsCleanly session kernel) kernel := by
  unfold Builtin.run
  cases builtin.operand? arguments with
  | error failure => exact FailsCleanly.of_length _ rfl rfl
  | ok operand =>
      cases builtin with
      | bglist =>
          unfold Builtin.runWith
          dsimp only
          rw [achieves_bind, achieves_get, afterActivity_ok, achieves_lift]
          refine (listJobs_succeeds session.jobs.entries).mono ?_
          rintro _ after rfl
          exact FailsCleanly.of_ok _
      | cd => exact changeDirectory_fails_cleanly operand
      | estatus =>
          unfold Builtin.runWith
          dsimp only
          rw [achieves_bind, achieves_get, afterActivity_ok, achieves_lift]
          refine (write_succeeds _).mono ?_
          rintro _ after rfl
          exact FailsCleanly.of_ok _
      | exit => exact exit_fails_cleanly
      | fg =>
          cases operand with
          | none => exact bringToForeground_fails_cleanly none
          | some text =>
              unfold Builtin.runWith
              dsimp only
              cases Builtin.readPid text with
              | error failure => exact FailsCleanly.of_length _ rfl rfl
              | ok pid => exact bringToForeground_fails_cleanly (some pid)

end Obliging

end JobControl
