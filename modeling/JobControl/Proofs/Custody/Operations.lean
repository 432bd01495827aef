import JobControl.Proofs.Custody.Line
/-!
# Operations in custody

Builtins, jobs and lines keep in custody what the registry lists, and none of them ends the
session by a failed wait.
-/

namespace JobControl

open World

section Custody

variable {kernel : Kernel} {accounts : List Account} {session : Session}

private theorem Upholds.of_held {outcome : Except Stop Unit} (tame : IsTame outcome)
    (held : session.jobs.InCustody kernel.attempts accounts) :
    Upholds [] outcome session kernel :=
  ⟨tame, accounts, fun _ member => absurd member List.not_mem_nil, held⟩

/-- What an operation leaves that does nothing to the registered jobs. -/
def SparesJobs (jobs : Registry) (accounts : List Account) (outcome : Except Stop Unit)
    (changed : Session) (after : Kernel) : Prop :=
  IsTame outcome ∧ changed.jobs = jobs ∧ jobs.InCustody after.attempts accounts

private theorem SparesJobs.upholds {jobs : Registry} {outcome : Except Stop Unit}
    {changed : Session} (spares : SparesJobs jobs accounts outcome changed kernel) :
    Upholds [] outcome changed kernel := by
  obtain ⟨tame, rfl, held⟩ := spares
  exact Upholds.of_held tame held

theorem sparesJobs_of_plain {action : Action Unit} (plain : action.IsPlain)
    (held : session.jobs.InCustody kernel.attempts accounts) :
    Kernel.telling.Achieves Call.IsSafe (liftM action : Activity Unit) session
      (SparesJobs session.jobs accounts) kernel := by
  refine (achieves_plain plain held).mono ?_
  rintro outcome changed after ⟨rfl, tame, kept⟩
  exact ⟨tame, rfl, kept⟩

/-- What is done after a plain action spares the jobs if it does so wherever it begins. -/
theorem SparesJobs.after_plain {α : Type} {action : Action α} {next : α → Activity Unit}
    (plain : action.IsPlain) (held : session.jobs.InCustody kernel.attempts accounts)
    (goOn : ∀ result after, session.jobs.InCustody after.attempts accounts →
      Kernel.telling.Achieves Call.IsSafe (next result) session
        (SparesJobs session.jobs accounts) after) :
    Kernel.telling.Achieves Call.IsSafe (liftM action >>= next) session
      (SparesJobs session.jobs accounts) kernel := by
  rw [achieves_bind]
  refine (achieves_plain plain held).mono ?_
  rintro (stop | result) _ after ⟨rfl, tame, kept⟩
  · exact ⟨tame.of_error, rfl, kept⟩
  · exact goOn result after kept

/-! ## Builtins -/

theorem changeDirectory_sparesJobs (operand : Option String) (outlet : Outlet)
    (held : session.jobs.InCustody kernel.attempts accounts) :
    Kernel.telling.Achieves Call.IsSafe (Builtin.changeDirectory operand outlet) session
      (SparesJobs session.jobs accounts) kernel := by
  unfold Builtin.changeDirectory
  rw [achieves_bind, achieves_get, afterActivity_ok]
  refine SparesJobs.after_plain (Builtin.directoryToEnter_isPlain _ _) held ?_
  intro directory chosen heldChosen
  refine SparesJobs.after_plain Builtin.currentDirectory_isPlain heldChosen ?_
  intro before asked heldAsked
  refine SparesJobs.after_plain (Action.isPlain_ask rfl) heldAsked ?_
  intro answer moved heldMoved
  cases answer with
  | error fault =>
      rw [achieves_fail]
      exact ⟨isTame_error rfl, rfl, heldMoved⟩
  | ok _ =>
      dsimp only
      rw [achieves_bind, achieves_set, afterActivity_ok]
      let changed : Session := { session with previousDirectory := some before }
      have heldChanged : changed.jobs.InCustody moved.attempts accounts := heldMoved
      refine SparesJobs.after_plain Builtin.currentDirectory_isPlain heldChanged ?_
      intro now told heldTold
      exact sparesJobs_of_plain (Action.write_isPlain _ _) heldTold

theorem operand_isTame {builtin : Builtin} {arguments : List String} {failure : Failure}
    (refused : builtin.operand? arguments = .error failure) : failure.isFatal = false := by
  unfold Builtin.operand? at refused
  split at refused
  · cases refused
  · cases refused
    rfl

theorem readPid_isTame {text : String} {failure : Failure}
    (refused : Builtin.readPid text = .error failure) : failure.isFatal = false := by
  unfold Builtin.readPid at refused
  split at refused
  · cases refused
  · cases refused
    rfl

private theorem builtin_upholds (builtin : Builtin) (arguments : List String) (outlet : Outlet)
    (held : session.jobs.InCustody kernel.attempts accounts) :
    Kernel.telling.Achieves Call.IsSafe (builtin.run arguments outlet) session (Upholds [])
      kernel := by
  have told : ∀ {action : Action Unit}, action.IsPlain →
      Kernel.telling.Achieves Call.IsSafe (liftM action : Activity Unit) session (Upholds [])
        kernel :=
    fun plain => (sparesJobs_of_plain plain held).mono fun _ _ _ spares => spares.upholds
  have foregrounds : ∀ wanted, Kernel.telling.Achieves Call.IsSafe
      (Session.bringToForeground wanted outlet) session (Upholds []) kernel :=
    fun wanted => (bringToForeground_upholds held wanted outlet).mono fun _ _ _ reached =>
      reached.1
  unfold Builtin.run
  cases read : builtin.operand? arguments with
  | error failure =>
      exact Upholds.of_held (isTame_error (operand_isTame read)) held
  | ok operand =>
      unfold Builtin.runWith
      cases builtin with
      | bglist =>
          dsimp only
          rw [achieves_bind, achieves_get, afterActivity_ok]
          exact told (Builtin.listJobs_isPlain _ _)
      | cd =>
          exact (changeDirectory_sparesJobs operand outlet held).mono fun _ _ _ spares =>
            spares.upholds
      | estatus =>
          dsimp only
          rw [achieves_bind, achieves_get, afterActivity_ok]
          exact told (Action.write_isPlain _ _)
      | exit => exact (exit_upholds held outlet)
      | fg =>
          cases operand with
          | none => exact foregrounds none
          | some text =>
              dsimp only
              cases named : Builtin.readPid text with
              | ok pid => exact foregrounds (some pid)
              | error failure =>
                  exact Upholds.of_held (isTame_error (readPid_isTame named)) held

/-! ## Jobs and lines -/

theorem runJob_upholds (job : Job) (held : session.jobs.InCustody kernel.attempts accounts) :
    Kernel.telling.Achieves Call.IsSafe (Session.runJob job) session (Upholds []) kernel := by
  unfold Session.runJob
  cases Builtin.ofName? job.program with
  | some builtin => exact builtin_upholds builtin _ _ held
  | none =>
      refine (runProgramJob_performs job held).mono ?_
      rintro outcome changed after ⟨tame, later, -, kept, -⟩
      exact Upholds.of_held tame kept

theorem parse_isTame {line : String} {stop : Stop} (refused : Job.parse line = .error stop) :
    stop.isFatal = false := by
  unfold Job.parse at refused
  dsimp only at refused
  split at refused
  · cases refused
  · split at refused
    · cases refused
      rfl
    · split at refused
      · cases refused
      · cases refused
        rfl

theorem runLine_upholds (line : String)
    (held : session.jobs.InCustody kernel.attempts accounts) :
    Kernel.telling.Achieves Call.IsSafe (Session.runLine line) session (Upholds []) kernel := by
  have parsed : Kernel.telling.Achieves Call.IsSafe (Session.runParsed (Job.parse line)) session
      (Upholds []) kernel := by
    cases read : Job.parse line with
    | error stop => exact Upholds.of_held (isTame_error (parse_isTame read)) held
    | ok job =>
        cases job with
        | none => exact Upholds.of_held (isTame_ok ()) held
        | some job => exact runJob_upholds job held
  apply Achieves.report parsed
  intro failure changed after _ upheld
  obtain ⟨-, later, keeps, kept⟩ := upheld
  refine (kept.custody.plain (Action.complain_isPlain failure)).mono ?_
  exact fun outcome last reached => ⟨reached.1, later, keeps, reached.2, kept.lists⟩

end Custody

end JobControl
