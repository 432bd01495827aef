import JobControl.Proofs.Custody.Background
/-!
# Lines in custody

Whatever a line asks for, the jobs in custody stay there, and every child that is started for it is
waited for, or is a process of the job that the line registers.
-/

namespace JobControl

open Relation World

/-- No step of a job could be started. -/
def NeverStarted (start : Nat) (job : Job) (table : List Attempt) : Prop :=
  (Kernel.slice table start job.steps.length).length = job.steps.length ∧
    ∀ attempt ∈ Kernel.slice table start job.steps.length,
      ∃ fault, attempt.life = .refused fault

/-- A job that was started in the background is in custody, unless no step of it was started. -/
def LeavesKnown (start : Nat) (job : Job) (accounts : List Account) (table : List Attempt) : Prop :=
  (∃ account ∈ accounts, account.start = start ∧ account.entry.job = job) ∨
    NeverStarted start job table

/-- At most one job has been taken into custody: this one, which was started at this place. -/
def Enters (start : Nat) (job : Job) (accounts later : List Account) : Prop :=
  later = accounts ∨ ∃ account, later = accounts ++ [account] ∧ account.start = start ∧
    account.entry.job = job ∧ account.isOpen = true

theorem Enters.none (start : Nat) (job : Job) (accounts : List Account) :
    Enters start job accounts accounts :=
  Or.inl rfl

theorem Enters.keeps {start : Nat} {job : Job} {accounts later : List Account}
    (enters : Enters start job accounts later) : Keeps accounts later := by
  obtain rfl | ⟨account, rfl, -⟩ := enters
  · exact Keeps.refl later
  · exact Keeps.append accounts [account]

/-- A job that was run in the foreground has come to its end, and its status is the recorded one. -/
structure LeavesStatus (start : Nat) (job : Job) (status : Option Int)
    (table : List Attempt) : Prop where
  runs : List.Forall₂ Attempt.Runs (table.drop start) job.steps
  settled : Settled (table.drop start)
  status : status = statusOf (table.drop start)

private theorem runs_of_same_outfits {before after : List Attempt} {start : Nat} {steps : List Step}
    (same : outfitsOf after = outfitsOf before)
    (runs : List.Forall₂ Attempt.Runs (before.drop start) steps) :
    List.Forall₂ Attempt.Runs (after.drop start) steps := by
  let gives : Outfit → Step → Prop := fun outfit step =>
    outfit.program = step.program ∧ outfit.arguments = step.arguments
  have given : List.Forall₂ gives (outfitsOf (before.drop start)) steps :=
    List.forall₂_map_left_iff.2 runs
  have dropped : outfitsOf (after.drop start) = outfitsOf (before.drop start) := by
    unfold outfitsOf at same ⊢
    rw [List.map_drop, List.map_drop, same]
  rw [← dropped] at given
  have kept := List.forall₂_map_left_iff.1 given
  exact kept

private theorem refused_of_begins {started : List StartedStep} {attempts : List Attempt}
    (begins : List.Forall₂ StartedStep.Begins started attempts)
    (none : ∀ step ∈ started, step.pid? = none) :
    ∀ attempt ∈ attempts, ∃ fault, attempt.life = .refused fault := by
  induction begins with
  | nil => exact fun attempt member => absurd member List.not_mem_nil
  | @cons step attempt rest others first _ inductionHypothesis =>
      have unstarted := none step List.mem_cons_self
      intro other member
      rcases List.mem_cons.1 member with rfl | later
      · unfold StartedStep.Begins at first
        unfold StartedStep.pid? at unstarted
        cases state : step.state with
        | running pid =>
            rw [state] at unstarted
            cases unstarted
        | ended pid status =>
            rw [state] at first
            exact first.elim
        | neverStarted status =>
            rw [state] at first
            obtain ⟨fault, lived, -⟩ := first
            exact ⟨fault, lived⟩
      · refine inductionHypothesis (fun last inside => ?_) other later
        exact none last (List.mem_cons_of_mem step inside)

private theorem neverStarted_of_begun {start : Nat} {job : Job} {started : List StartedStep}
    {table : List Attempt} (begun : JobBegun Ending.IsTold start job started table)
    (none : started.filterMap StartedStep.pid? = []) : NeverStarted start job table := by
  unfold NeverStarted
  rw [begun.slice_eq]
  exact ⟨begun.runs.length_eq,
    refused_of_begins begun.begun.begins (List.filterMap_eq_nil_iff.1 none)⟩

section Custody

variable {kernel : Kernel} {accounts : List Account} {session : Session}

/-! ## Registering -/

private theorem insert_isTame {registry : Registry} {entry : Entry} {failure : Failure}
    (refused : registry.insert entry = .error failure) : failure.isFatal = false := by
  unfold Registry.insert at refused
  split at refused
  · cases refused
    rfl
  · split at refused
    · cases refused
      rfl
    · cases refused

private theorem register_upholds {start : Nat} {job : Job} {steps : List StartedStep}
    (begun : JobBegun Ending.IsTold start job steps kernel.attempts)
    (custody : Custody kernel.attempts accounts (runningOf steps))
    (lists : session.jobs.Lists accounts) :
    Kernel.telling.Achieves Call.IsSafe (Session.register job steps) session
      (fun outcome changed after => IsTame outcome ∧ ∃ later, Enters start job accounts later ∧
        changed.jobs.InCustody after.attempts later ∧
        (outcome = .ok () → LeavesKnown start job later after.attempts)) kernel := by
  unfold Session.register
  dsimp only
  obtain ⟨pids, -, -⟩ := runningOf_of_begins begun.begun.begins
  cases unstarted : (steps.filterMap StartedStep.pid?).isEmpty with
  | true =>
      have none : steps.filterMap StartedStep.pid? = [] := List.isEmpty_iff.1 unstarted
      rw [← pids, none] at custody
      rw [if_pos rfl, achieves_pure]
      exact ⟨isTame_ok (), accounts, Enters.none start job accounts, ⟨custody, lists⟩,
        fun _ => Or.inr (neverStarted_of_begun begun none)⟩
  | false =>
      have some_started : steps.filterMap StartedStep.pid? ≠ [] := by
        intro none
        rw [none] at unstarted
        cases unstarted
      rw [if_neg (by simp), achieves_bind, achieves_lift]
      refine ((custody.plain (Action.isPlain_ask rfl)).and
        (ages_of_plain (Action.isPlain_ask rfl) kernel)).mono ?_
      rintro (stop | moment) after ⟨⟨tame, kept⟩, ages⟩
      · exact ⟨tame.of_error, accounts, Enters.none start job accounts,
          ⟨kept.sublist (List.Sublist.refl _) (List.nil_sublist _), lists⟩,
          fun equal => nomatch equal⟩
      · rw [afterActivity_ok]
        obtain ⟨entry, made, ofJob, processes, follows⟩ :=
          (begun.of_ages ages).exists_entry moment some_started
        rw [made]
        dsimp only
        rw [achieves_bind, achieves_get, afterActivity_ok]
        cases inserted : session.jobs.insert entry with
        | error failure =>
            dsimp only
            rw [achieves_bind, achieves_lift]
            have toStop : Custody after.attempts accounts
                (steps.filterMap StartedStep.pid? ++ []) := by
              rw [List.append_nil, pids]
              exact kept
            refine (stopProcesses_safe toStop).mono ?_
            rintro outcome stopped ⟨rfl, released⟩
            exact ⟨isTame_error (insert_isTame inserted), accounts,
              Enters.none start job accounts, ⟨released, lists⟩, fun equal => nomatch equal⟩
        | ok jobs =>
            dsimp only
            rw [achieves_bind, achieves_set, afterActivity_ok]
            let account : Account := ⟨start, entry⟩
            have isOpen : account.isOpen := by
              unfold Account.isOpen
              rw [show account.entry.processes = _ from processes, ← pids, unstarted]
              rfl
            have attempts : account.attempts after.attempts =
                Kernel.slice after.attempts start job.steps.length := by
              unfold Account.attempts
              rw [show account.entry.job = job from ofJob]
            let entered : Session := { session with jobs := jobs }
            have inCustody : entered.jobs.InCustody after.attempts (accounts ++ [account]) :=
              lists.admit (processes ▸ kept) isOpen (attempts ▸ follows) inserted
            have known : ∀ table, LeavesKnown start job (accounts ++ [account]) table :=
              fun _ => Or.inl ⟨account, List.mem_append_right _ List.mem_cons_self, rfl, ofJob⟩
            have enters : Enters start job accounts (accounts ++ [account]) :=
              Or.inr ⟨account, rfl, rfl, ofJob, isOpen⟩
            split
            · refine Achieves.mono (achieves_plain (Action.notice_isPlain _ _) inCustody) ?_
              rintro outcome changed last ⟨rfl, tame, keptLast⟩
              exact ⟨tame, _, enters, keptLast, fun _ => known _⟩
            · exact ⟨isTame_ok (), _, enters, inCustody, fun _ => known _⟩

/-! ## Running a job -/

/-- What running a job that is no builtin leaves. -/
def Performs (start : Nat) (job : Job) (accounts : List Account) (outcome : Except Stop Unit)
    (changed : Session) (after : Kernel) : Prop :=
  IsTame outcome ∧ ∃ later, Enters start job accounts later ∧
    changed.jobs.InCustody after.attempts later ∧
    (outcome = .ok () →
      if job.background then LeavesKnown start job later after.attempts
      else LeavesStatus start job changed.lastStatus after.attempts)

theorem Performs.of_error {start : Nat} {job : Job} {stop : Stop} {changed : Session}
    {after : Kernel} (tame : stop.isFatal = false)
    (held : changed.jobs.InCustody after.attempts accounts) :
    Performs start job accounts (.error stop) changed after :=
  ⟨isTame_error tame, accounts, Enters.none start job accounts, held, fun equal => nomatch equal⟩

/-- The steps of a job are waited for, and unless a wait fails the status of the last one is
recorded. -/
theorem foreground_leavesStatus {endings : Ending → Prop} {start : Nat} {job : Job}
    {steps : List StartedStep} (begun : JobBegun endings start job steps kernel.attempts) :
    (Kernel.world endings).Achieves (fun _ _ => True) (do
        let (waited, _) ← (waitForAll steps :
          Action (Except Stop (Option Int) × List StartedStep))
        match waited with
        | .error stop => throw stop
        | .ok status => Session.recordStatus status) session
      (fun outcome changed after =>
        outcome = .ok () → LeavesStatus start job changed.lastStatus after.attempts) kernel := by
  rw [achieves_bind, achieves_lift, ensures_run_lift]
  refine ((waitForAll_waits begun.begun).and (waitForAll_keeps steps kernel)).mono ?_
  rintro ⟨stop | waited, others⟩ after ⟨reached, -, outfits, -⟩
  · exact fun failed => nomatch failed
  obtain ⟨rfl, settled⟩ := reached
  have runs := runs_of_same_outfits outfits begun.runs
  obtain ⟨status, known⟩ : ∃ status, statusOf (after.attempts.drop start) = some status := by
    cases rows : after.attempts.drop start with
    | nil =>
        rw [rows] at runs
        exact absurd (List.forall₂_nil_left_iff.1 runs) job.steps_ne_nil
    | cons attempt rest =>
        rw [rows] at settled
        obtain ⟨outcome, lived⟩ := settled attempt List.mem_cons_self
        exact ⟨_, statusOf_cons lived fun other member =>
          settled other (List.mem_cons_of_mem attempt member)⟩
  rw [afterActivity_ok]
  dsimp only
  rw [known]
  exact fun _ => ⟨runs, settled, known.symm⟩

/-- The steps of a job in the foreground are waited for, and the jobs in custody stay there. -/
theorem foreground_performs {start : Nat} {job : Job} {steps : List StartedStep}
    (foreground : job.background = false)
    (begun : JobBegun Ending.IsTold start job steps kernel.attempts)
    (custody : Custody kernel.attempts accounts (runningOf steps))
    (lists : session.jobs.Lists accounts) :
    Kernel.telling.Achieves Call.IsSafe (do
        let (waited, _) ← (waitForAll steps :
          Action (Except Stop (Option Int) × List StartedStep))
        match waited with
        | .error stop => throw stop
        | .ok status => Session.recordStatus status) session
      (Performs start job accounts) kernel := by
  have releases : Kernel.telling.Achieves Call.IsSafe (do
        let (waited, _) ← (waitForAll steps :
          Action (Except Stop (Option Int) × List StartedStep))
        match waited with
        | .error stop => throw stop
        | .ok status => Session.recordStatus status) session
      (fun outcome changed after => outcome = .ok () ∧ changed.jobs = session.jobs ∧
        Custody after.attempts accounts []) kernel := by
    rw [achieves_bind, achieves_lift, ensures_run_lift]
    have toWait : Custody kernel.attempts accounts
        (steps.filterMap StartedStep.running? ++ []) := by
      rw [List.append_nil]
      exact custody
    refine (waitForAll_safe toWait).mono ?_
    rintro ⟨waited, others⟩ after ⟨⟨status, rfl⟩, released⟩
    rw [afterActivity_ok]
    cases status <;> exact ⟨rfl, rfl, released⟩
  refine Ensures.mono (releases.and (foreground_leavesStatus begun)) ?_
  rintro ⟨outcome, changed⟩ after ⟨⟨rfl, sameJobs, released⟩, leaves⟩
  have listed : changed.jobs.Lists accounts := sameJobs ▸ lists
  refine ⟨isTame_ok (), accounts, Enters.none start job accounts, ⟨released, listed⟩, fun _ => ?_⟩
  rw [foreground]
  exact leaves rfl

/-- A job that is run in the foreground to its end has left the status of its last step, in
whatever ways children may end. -/
theorem runProgramJob_leavesStatus {endings : Ending → Prop} {job : Job}
    (foreground : job.background = false) (orderly : Orderly endings kernel.attempts) :
    (Kernel.world endings).Achieves (fun _ _ => True) (Session.runProgramJob job) session
      (fun outcome changed after => outcome = .ok () →
        LeavesStatus kernel.attempts.length job changed.lastStatus after.attempts) kernel := by
  unfold Session.runProgramJob
  rw [achieves_bind, achieves_get, afterActivity_ok, foreground, Bool.false_and,
    if_neg Bool.false_ne_true, achieves_bind, achieves_lift]
  refine (ages_of_plain (Session.streamsOf_isPlain job) kernel).mono ?_
  rintro (stop | streams) opened ages
  · exact fun failed => nomatch failed
  · rw [afterActivity_ok, achieves_bind, achieves_lift]
    have begins := startSteps_begins job streams (orderly.of_ages ages)
    rw [ages.length_eq] at begins
    refine begins.mono ?_
    rintro (stop | steps) started begun
    · exact fun failed => nomatch failed
    · rw [afterActivity_ok, if_neg Bool.false_ne_true]
      exact foreground_leavesStatus (begun steps rfl)

theorem runProgramJob_performs (job : Job)
    (held : session.jobs.InCustody kernel.attempts accounts) :
    Kernel.telling.Achieves Call.IsSafe (Session.runProgramJob job) session
      (Performs kernel.attempts.length job accounts) kernel := by
  unfold Session.runProgramJob
  rw [achieves_bind, achieves_get, afterActivity_ok]
  split
  · rw [achieves_fail]
    exact Performs.of_error rfl held
  · rw [achieves_bind, achieves_lift]
    refine ((held.custody.plain (Session.streamsOf_isPlain job)).and
      (ages_of_plain (Session.streamsOf_isPlain job) kernel)).mono ?_
    rintro (stop | streams) opened ⟨⟨tame, kept⟩, ages⟩
    · exact Performs.of_error (tame stop rfl) ⟨kept, held.lists⟩
    · rw [afterActivity_ok, achieves_bind, achieves_lift]
      have begins := startSteps_begins job streams kept.orderly
      rw [ages.length_eq] at begins
      refine ((startSteps_safe job streams kept).and begins).mono ?_
      rintro (stop | steps) started ⟨⟨tame, custody⟩, begun⟩
      · exact Performs.of_error (tame stop rfl) ⟨custody, held.lists⟩
      · rw [afterActivity_ok]
        cases background : job.background with
        | true =>
            rw [if_pos rfl]
            refine (register_upholds (begun steps rfl) custody held.lists).mono ?_
            rintro outcome changed after ⟨tameLast, later, keeps, inCustody, known⟩
            refine ⟨tameLast, later, keeps, inCustody, fun ok => ?_⟩
            rw [background]
            exact known ok
        | false =>
            rw [if_neg (by simp)]
            exact foreground_performs background (begun steps rfl) custody held.lists

end Custody

end JobControl
