import JobControl.Proofs.Shell
import Mathlib.Data.List.Pairwise
/-!
# Statuses of jobs taken to the foreground

A job leaves the status of its last step, whether it is run in the foreground or started in the
background and taken to the foreground later, whatever was reaped in between.
-/

namespace JobControl

open Relation World

/-! ## Outcomes of steps -/

/-- The steps of a job whose first attempt is at a place of the table had these outcomes. -/
def HasOutcomes (table : List Attempt) (start : Nat) (job : Job) (outcomes : List Outcome) : Prop :=
  (Kernel.slice table start job.steps.length).map (fun attempt => attempt.life.outcome?) =
    outcomes.map some

private theorem statusOf_of_outcomes {attempts : List Attempt} {outcomes : List Outcome}
    (known : attempts.map (fun attempt => attempt.life.outcome?) = outcomes.map some) :
    statusOf attempts = outcomes.getLast?.map Outcome.status := by
  have viewed : statusOf attempts =
      (attempts.map fun attempt => attempt.life.outcome?).getLast?.bind
        (Option.map Outcome.status) := by
    rw [List.getLast?_map, Option.bind_map]
    rfl
  rw [viewed, known, List.getLast?_map, Option.bind_map]
  cases outcomes.getLast? with
  | none => rfl
  | some outcome => rfl

private theorem HasOutcomes.exists_last {table : List Attempt} {start : Nat} {job : Job}
    {outcomes : List Outcome} (known : HasOutcomes table start job outcomes)
    (whole : (Kernel.slice table start job.steps.length).length = job.steps.length) :
    ∃ last, outcomes.getLast? = some last := by
  have same := congrArg List.length known
  rw [List.length_map, List.length_map, whole] at same
  have nonempty : outcomes ≠ [] := by
    rintro rfl
    exact job.steps_ne_nil (List.length_eq_zero_iff.1 same)
  exact ⟨outcomes.getLast nonempty, List.getLast?_eq_some_getLast nonempty⟩

private theorem Settled.exists_outcomes {attempts : List Attempt} (settled : Settled attempts) :
    ∃ outcomes : List Outcome,
      attempts.map (fun attempt => attempt.life.outcome?) = outcomes.map some := by
  induction attempts with
  | nil => exact ⟨[], rfl⟩
  | cons attempt rest inductionHypothesis =>
      obtain ⟨outcome, known⟩ := settled attempt List.mem_cons_self
      obtain ⟨outcomes, others⟩ := inductionHypothesis fun other member =>
        settled other (List.mem_cons_of_mem attempt member)
      refine ⟨outcome :: outcomes, ?_⟩
      rw [List.map_cons, List.map_cons, known, others]

/-! ## Jobs that never started -/

theorem Kernel.getElem?_slice {table : List Attempt} {start count place : Nat}
    (early : place < count) :
    (Kernel.slice table start count)[place]? = table[start + place]? := by
  unfold Kernel.slice
  rw [List.getElem?_take_of_lt early, List.getElem?_drop]

/-- A stretch of the table that was whole is still there when the table has grown. -/
theorem Grows.mem_slice {before after : List Attempt} (grows : Grows before after)
    {start count : Nat} (whole : (Kernel.slice before start count).length = count)
    {attempt : Attempt} (member : attempt ∈ Kernel.slice after start count) :
    ∃ earlier ∈ Kernel.slice before start count, earlier.Becomes attempt := by
  obtain ⟨place, inside, rfl⟩ := List.mem_iff_getElem.1 member
  have early : place < count := by
    have total := List.length_take_le count (after.drop start)
    unfold Kernel.slice at inside
    omega
  have there : place < (Kernel.slice before start count).length := by omega
  have found : (Kernel.slice before start count)[place]? = before[start + place]? :=
    Kernel.getElem?_slice early
  rw [List.getElem?_eq_getElem there] at found
  obtain ⟨aged, agedFound, becomes⟩ := grows _ _ found.symm
  have same : (Kernel.slice after start count)[place]? = after[start + place]? :=
    Kernel.getElem?_slice early
  rw [List.getElem?_eq_getElem inside, agedFound] at same
  refine ⟨_, List.getElem_mem there, ?_⟩
  rw [Option.some.inj same]
  exact becomes

theorem Grows.whole {before after : List Attempt} (grows : Grows before after)
    {start count : Nat} (whole : (Kernel.slice before start count).length = count) :
    (Kernel.slice after start count).length = count := by
  have longer := grows.length_le
  unfold Kernel.slice at whole ⊢
  rw [List.length_take, List.length_drop] at whole ⊢
  omega

/-- The attempts to start the steps of a job stay that. -/
theorem Grows.runs {before after : List Attempt} (grows : Grows before after) {start : Nat}
    {steps : List Step}
    (runs : List.Forall₂ Attempt.Runs (Kernel.slice before start steps.length) steps) :
    List.Forall₂ Attempt.Runs (Kernel.slice after start steps.length) steps := by
  have whole := grows.whole runs.length_eq
  refine List.forall₂_iff_get.2 ⟨whole, fun place inside within => ?_⟩
  have there : place < (Kernel.slice before start steps.length).length := by
    rwa [runs.length_eq]
  have earlier : (Kernel.slice before start steps.length)[place]? = before[start + place]? :=
    Kernel.getElem?_slice within
  rw [List.getElem?_eq_getElem there] at earlier
  obtain ⟨aged, found, -, becomes⟩ := grows _ _ earlier.symm
  have later : (Kernel.slice after start steps.length)[place]? = after[start + place]? :=
    Kernel.getElem?_slice within
  rw [List.getElem?_eq_getElem inside, found] at later
  have ran : Attempt.Runs (Kernel.slice before start steps.length)[place] steps[place] :=
    runs.get there within
  have same : (Kernel.slice after start steps.length)[place] = aged := Option.some.inj later
  rw [List.get_eq_getElem, List.get_eq_getElem, same, becomes]
  exact ran

theorem NeverStarted.uncollected {start : Nat} {job : Job} {table after : List Attempt}
    (never : NeverStarted start job table) (grows : Grows table after) :
    uncollectedOf (Kernel.slice after start job.steps.length) = [] := by
  refine List.filterMap_eq_nil_iff.2 fun attempt member => ?_
  obtain ⟨earlier, there, lives, -⟩ := grows.mem_slice never.1 member
  obtain ⟨fault, refused⟩ := never.2 earlier there
  rw [refused] at lives
  generalize attempt.life = life at lives ⊢
  cases lives
  rfl

/-! ## Taking a certain job -/

private theorem Custody.account_unique {table : List Attempt} {accounts : List Account}
    {loose : List Pid} (custody : Custody table accounts loose) {account other : Account}
    (known : account ∈ accounts) (otherKnown : other ∈ accounts) {pid : Pid}
    (member : pid ∈ account.entry.processes) (otherMember : pid ∈ other.entry.processes) :
    account = other := by
  have distinct := (List.nodup_append.1 custody.distinct).1
  let shareNone : Account → Account → Prop := fun left right =>
    List.Disjoint left.entry.processes right.entry.processes
  have apart : accounts.Pairwise shareNone := (List.nodup_flatMap.1 distinct).2
  have symmetric : Std.Symm shareNone := ⟨fun _ _ disjoint _ here there => disjoint there here⟩
  by_contra different
  exact apart.forall known otherKnown different member otherMember

theorem Custody.pid_mem {table : List Attempt} {accounts : List Account} {loose : List Pid}
    (custody : Custody table accounts loose) {account : Account} (known : account ∈ accounts)
    (isOpen : account.isOpen) : account.entry.pid ∈ account.entry.processes := by
  have nonempty : account.entry.processes ≠ [] := by
    simpa [Account.isOpen] using isOpen
  have last := List.getLast?_eq_some_getLast nonempty
  rw [(custody.follows account known).named _ last]
  exact List.getLast_mem nonempty

/-- An entry is asked for by its name, or as the oldest. -/
def Registry.Asks (registry : Registry) (wanted : Option Pid) (entry : Entry) : Prop :=
  wanted = some entry.pid ∨ wanted = none ∧ registry.entries.head? = some entry

private theorem takeFirst?_isSome (wanted : Entry → Bool) {entries : List Entry} {entry : Entry}
    (listed : entry ∈ entries) (fits : wanted entry = true) :
    ∃ found left, Registry.takeFirst? wanted entries = some (found, left) ∧
      found ∈ entries ∧ wanted found = true := by
  induction entries with
  | nil => exact absurd listed List.not_mem_nil
  | cons first rest inductionHypothesis =>
      unfold Registry.takeFirst?
      cases state : wanted first with
      | true =>
          exact ⟨first, rest, if_pos rfl, List.mem_cons_self, state⟩
      | false =>
          rcases List.mem_cons.1 listed with rfl | later
          · rw [state] at fits
            cases fits
          · obtain ⟨found, left, taken, inside, fitting⟩ := inductionHypothesis later
            refine ⟨found, first :: left, ?_, List.mem_cons_of_mem first inside, fitting⟩
            rw [if_neg (by simp), taken]
            rfl

theorem Registry.InCustody.takeJob {registry : Registry} {table : List Attempt}
    {accounts : List Account} (held : registry.InCustody table accounts) {account : Account}
    (known : account ∈ accounts) (isOpen : account.isOpen) {wanted : Option Pid}
    (asks : registry.Asks wanted account.entry) :
    ∃ jobs, Session.takeJob registry wanted = .ok (account.entry, jobs) := by
  rcases asks with rfl | ⟨rfl, first⟩
  · have listed : account.entry ∈ registry.entries := by
      rw [held.lists]
      exact mem_entriesOf.2 ⟨account, known, isOpen, rfl⟩
    obtain ⟨found, left, taken, inside, named⟩ :=
      takeFirst?_isSome (fun entry => entry.pid = account.entry.pid) listed (decide_eq_true rfl)
    have same : found = account.entry := by
      rw [held.lists] at inside
      obtain ⟨other, otherKnown, otherOpen, rfl⟩ := mem_entriesOf.1 inside
      have member := held.custody.pid_mem known isOpen
      have otherMember := held.custody.pid_mem otherKnown otherOpen
      rw [of_decide_eq_true named] at otherMember
      rw [held.custody.account_unique known otherKnown member otherMember]
    rw [same] at taken
    unfold Session.takeJob Registry.remove
    dsimp only
    rw [taken]
    exact ⟨_, rfl⟩
  · unfold Session.takeJob Registry.removeOldest
    dsimp only
    cases entries : registry.entries with
    | nil =>
        rw [entries] at first
        cases first
    | cons oldest left =>
        rw [entries] at first
        obtain rfl := Option.some.inj first
        exact ⟨_, rfl⟩

/-! ## Running a job in either way -/

/-- A shell has run a job in the foreground, the steps of which had these outcomes, and this is the
session that it was left with. -/
def RunsInForeground (job : Job) (outcomes : List Outcome) (left : Session) : Prop :=
  ∃ settings session kernel after,
    Shell.Reachable Kernel.telling settings ⟨.idle session, kernel⟩ ∧
      Kernel.telling.Leads
        ⟨(Session.runJob { job with background := false }).perform session, kernel⟩
        ⟨.done (.ok (), left), after⟩ ∧
      HasOutcomes after.attempts kernel.attempts.length job outcomes

/-- A shell has started a job in the background, whose first attempt is at this place of the table,
and has done nothing since but act on signals and run jobs. -/
def RunsInBackground (job : Job) (start : Nat) (shell : Shell) : Prop :=
  ∃ settings session kernel started after,
    Shell.Reachable Kernel.telling settings ⟨.idle session, kernel⟩ ∧
      start = kernel.attempts.length ∧
      Kernel.telling.Leads
        ⟨(Session.runJob { job with background := true }).perform session, kernel⟩
        ⟨.done (.ok (), started), after⟩ ∧
      Shell.Runs Operation.Spares Kernel.telling ⟨.idle started, after⟩ shell

variable {job : Job} {outcomes : List Outcome}

theorem runJob_of_program {session : Session} (program : Builtin.ofName? job.program = none) :
    (Session.runJob job).perform session = (Session.runProgramJob job).perform session := by
  unfold Session.runJob
  rw [program]

/-- The attempts to start the steps of a job begin at this place of the table, and a session has the
status of the last of them. -/
def HasLastStatus (job : Job) (start : Nat) (changed : Session) (table : List Attempt) : Prop :=
  List.Forall₂ Attempt.Runs (Kernel.slice table start job.steps.length) job.steps ∧
    ∃ outcomes last, HasOutcomes table start job outcomes ∧ outcomes.getLast? = some last ∧
      changed.lastStatus = some last.status

private theorem hasLastStatus_of_settled {start : Nat} {changed : Session} {table : List Attempt}
    (runs : List.Forall₂ Attempt.Runs (Kernel.slice table start job.steps.length) job.steps)
    (settled : Settled (Kernel.slice table start job.steps.length))
    (recorded : changed.lastStatus = statusOf (Kernel.slice table start job.steps.length)) :
    HasLastStatus job start changed table := by
  obtain ⟨outcomes, known⟩ := settled.exists_outcomes
  have has : HasOutcomes table start job outcomes := known
  obtain ⟨last, found⟩ := has.exists_last runs.length_eq
  refine ⟨runs, outcomes, last, has, found, ?_⟩
  rw [recorded, statusOf_of_outcomes known, found]
  rfl

/-- A job that was run in the foreground to its end has left the status of its last step. -/
theorem runProgramJob_hasLastStatus {endings : Ending → Prop} {session changed : Session}
    {kernel after : Kernel} (orderly : Orderly endings kernel.attempts)
    (foreground : job.background = false)
    (leads : (Kernel.world endings).Leads ⟨(Session.runProgramJob job).perform session, kernel⟩
      ⟨.done (.ok (), changed), after⟩) :
    HasLastStatus job kernel.attempts.length changed after.attempts := by
  obtain ⟨answered, drifts, leaves⟩ :=
    Ensures.result (runProgramJob_leavesStatus foreground orderly) leads
  obtain ⟨runs, settled, recorded⟩ := leaves rfl
  have same := settled.of_ages (fun turns => turns.drop _) (Kernel.ages_of_drifts drifts)
  have all : Kernel.slice after.attempts kernel.attempts.length job.steps.length =
      answered.attempts.drop kernel.attempts.length := by
    unfold Kernel.slice
    rw [same]
    exact List.take_of_length_le (Nat.le_of_eq runs.length_eq)
  rw [← all] at runs settled recorded
  exact hasLastStatus_of_settled runs settled recorded

/-- A job that was taken to the foreground has left the status of its last step, unless its line
could not be written. -/
theorem bringToForeground_hasLastStatus {session changed : Session} {kernel after : Kernel}
    {accounts : List Account} (held : session.jobs.InCustody kernel.attempts accounts)
    {wanted : Option Pid} {outlet : Outlet} {entry : Entry} {jobs : Registry}
    {outcome : Except Stop Unit}
    (taken : Session.takeJob session.jobs wanted = .ok (entry, jobs))
    (leads : Kernel.telling.Leads
      ⟨(Session.bringToForeground wanted outlet).perform session, kernel⟩
      ⟨.done (outcome, changed), after⟩) :
    (∃ reason, outcome = .error (.failure (.access (.refused reason)))) ∨
      outcome = .ok () ∧ ∃ account ∈ accounts, account.entry = entry ∧
        HasLastStatus entry.job account.start changed after.attempts := by
  obtain ⟨answered, drifts, -, foregrounds⟩ :=
    Ensures.result (bringToForeground_upholds held wanted outlet) leads
  obtain ⟨account, known, -, rfl, failed | ⟨fine, settled, recorded⟩⟩ :=
    foregrounds entry jobs taken
  · exact Or.inl failed
  · unfold Account.attempts at settled recorded
    have same := settled.of_ages (fun turns => turns.slice _ _) (Kernel.ages_of_drifts drifts)
    rw [← same] at settled recorded
    have grows := Kernel.grows_of_later (Leads.later leads)
    have runs := grows.runs (held.custody.follows account known).runs
    exact Or.inr ⟨fine, account, known, rfl, hasLastStatus_of_settled runs settled recorded⟩

theorem RunsInForeground.status {left : Session} (runs : RunsInForeground job outcomes left)
    (program : Builtin.ofName? job.program = none) :
    ∃ last, outcomes.getLast? = some last ∧ left.lastStatus = some last.status := by
  obtain ⟨settings, session, kernel, after, reachable, leads, known⟩ := runs
  obtain ⟨⟨accounts, -, held⟩, -⟩ := Shell.Sound.of_reachable reachable
  have foreground : Builtin.ofName? { job with background := false }.program = none := program
  rw [runJob_of_program foreground] at leads
  obtain ⟨-, others, last, has, found, status⟩ :=
    runProgramJob_hasLastStatus held.custody.orderly rfl leads
  have same : others.map some = outcomes.map some := has.symm.trans known
  rw [List.map_injective_iff.2 (fun _ _ => Option.some.inj) same] at found
  exact ⟨last, found, status⟩

theorem RunsInBackground.account {start : Nat} {session : Session} {kernel : Kernel}
    (runs : RunsInBackground job start ⟨.idle session, kernel⟩)
    (program : Builtin.ofName? job.program = none)
    (left : uncollectedOf (Kernel.slice kernel.attempts start job.steps.length) ≠ []) :
    ∃ accounts, session.jobs.InCustody kernel.attempts accounts ∧
      ∃ account ∈ accounts, account.start = start ∧
        account.entry.job = { job with background := true } := by
  obtain ⟨settings, first, before, started, after, reachable, rfl, leads, others⟩ := runs
  obtain ⟨⟨accounts, -, held⟩, -⟩ := Shell.Sound.of_reachable reachable
  have performed := reachable.perform (.job { job with background := true }) trivial leads
  obtain ⟨-, calm⟩ := Shell.Sound.of_reachable performed
  have background : Builtin.ofName? { job with background := true }.program = none := program
  rw [runJob_of_program background] at leads
  obtain ⟨answered, drifts, -, later, -, inCustody, leaves⟩ :=
    Ensures.result (runProgramJob_performs { job with background := true } held) leads
  have growing : Grows answered.attempts kernel.attempts :=
    Kernel.grows_of_later (drifts.later.trans others.later)
  rcases leaves rfl with ⟨account, known, begins, ofJob⟩ | never
  · have sound : Shell.Sound later ⟨.idle started, after⟩ :=
      ⟨⟨later, Keeps.refl later, inCustody.custody.of_drifts drifts, inCustody.lists⟩, calm⟩
    obtain ⟨⟨last, keeps, heldLast⟩, -⟩ := sound.runs (fun _ spares => Or.inl spares) others
    obtain ⟨kept, there, same, sameJob⟩ := keeps account known
    exact ⟨last, heldLast, kept, there, same.trans begins, sameJob.trans ofJob⟩
  · exact absurd (never.uncollected growing) left

/-- A session has the status of the last step of a job whose first attempt is at this place of the
table, and that is the one with which it is left when it runs the job in the foreground. -/
def HasStatusOf (job : Job) (start : Nat) (changed : Session) (table : List Attempt) : Prop :=
  ∃ outcomes last, HasOutcomes table start job outcomes ∧ outcomes.getLast? = some last ∧
    changed.lastStatus = some last.status ∧
    ∀ left, RunsInForeground job outcomes left → left.lastStatus = changed.lastStatus

private theorem HasLastStatus.hasStatusOf {start : Nat} {changed : Session} {table : List Attempt}
    (left : HasLastStatus job start changed table)
    (program : Builtin.ofName? job.program = none) : HasStatusOf job start changed table := by
  obtain ⟨-, outcomes, last, has, found, status⟩ := left
  refine ⟨outcomes, last, has, found, status, fun left foreground => ?_⟩
  obtain ⟨other, otherFound, otherStatus⟩ := foreground.status program
  rw [found] at otherFound
  obtain rfl := Option.some.inj otherFound
  exact otherStatus.trans status.symm

/-- A job that was started in the background is registered until its last process is reaped, and
taking it to the foreground leaves the status that running it in the foreground leaves. -/
theorem bringToForeground_agrees {start : Nat} {session : Session} {kernel : Kernel}
    (program : Builtin.ofName? job.program = none)
    (runs : RunsInBackground job start ⟨.idle session, kernel⟩)
    (left : uncollectedOf (Kernel.slice kernel.attempts start job.steps.length) ≠ []) :
    ∃ entry ∈ session.jobs.entries, entry.job = { job with background := true } ∧
      entry.processes = uncollectedOf (Kernel.slice kernel.attempts start job.steps.length) ∧
      ∀ wanted outlet outcome changed after, session.jobs.Asks wanted entry →
        Kernel.telling.Leads ⟨(Session.bringToForeground wanted outlet).perform session, kernel⟩
          ⟨.done (outcome, changed), after⟩ →
        (∃ reason, outcome = .error (.failure (.access (.refused reason)))) ∨
          outcome = .ok () ∧ HasStatusOf job start changed after.attempts := by
  obtain ⟨accounts, held, account, known, rfl, ofJob⟩ := runs.account program left
  have processes : account.entry.processes =
      uncollectedOf (Kernel.slice kernel.attempts account.start job.steps.length) := by
    have follows := held.custody.follows account known
    rw [follows.processes, Account.attempts, ofJob]
    rfl
  have isOpen : account.isOpen := by
    rw [← processes] at left
    simpa [Account.isOpen] using left
  have listed : account.entry ∈ session.jobs.entries := by
    rw [held.lists]
    exact mem_entriesOf.2 ⟨account, known, isOpen, rfl⟩
  refine ⟨account.entry, listed, ofJob, processes, ?_⟩
  intro wanted outlet outcome changed after asks leads
  obtain ⟨jobs, taken⟩ := held.takeJob known isOpen asks
  obtain failed | ⟨fine, other, otherKnown, sameEntry, status⟩ :=
    bringToForeground_hasLastStatus held taken leads
  · exact Or.inl failed
  · -- The job that was waited for is this one, since they have a process in common.
    have member := held.custody.pid_mem known isOpen
    have otherMember : account.entry.pid ∈ other.entry.processes := by
      rw [sameEntry]
      exact member
    obtain rfl := held.custody.account_unique known otherKnown member otherMember
    rw [ofJob] at status
    have left : HasLastStatus job account.start changed after.attempts := status
    exact Or.inr ⟨fine, left.hasStatusOf program⟩

/-- The last step of a job never starts, and its first is waited for in the foreground. -/
theorem bringToForeground_agrees_without_last :
    ∃ job session kernel changed after left,
      RunsInBackground job 0 ⟨.idle session, kernel⟩ ∧
        Kernel.telling.Leads ⟨(Session.bringToForeground none .output).perform session, kernel⟩
          ⟨.done (.ok (), changed), after⟩ ∧
        HasStatusOf job 0 changed after.attempts ∧
        RunsInForeground job [.ended (.exited 3), .refused (.refused .noEntry)] left := by
  let job : Job :=
    { input := "yes | absent", first := { program := "yes" }, rest := [{ program := "absent" }] }
  have told : Ending.IsTold (.exited 3) := rfl
  have foreground : ∃ left,
      RunsInForeground job [.ended (.exited 3), .refused (.refused .noEntry)] left := by
    apply Exists.intro
    refine ⟨{}, Session.ofSettings {}, {}, ?_⟩
    apply Exists.intro
    refine ⟨ReflTransGen.refl, ?_, ?_⟩
    · refine Leads.answer (.ok (⟨3⟩, ⟨4⟩)) ⟨_, ⟨rfl, rfl, by decide, rfl⟩, rfl⟩ ?_
      refine Leads.answer (.ok ⟨10⟩) ⟨_, ⟨by decide, rfl⟩, rfl⟩ ?_
      refine Leads.answer () ⟨_, rfl, rfl⟩ ?_
      refine Leads.answer (.error (.refused .noEntry)) ⟨_, ⟨false, by decide, rfl⟩, rfl⟩ ?_
      refine Leads.answer (.ok ()) ⟨_, rfl, rfl⟩ ?_
      refine Leads.answer () ⟨_, rfl, rfl⟩ ?_
      refine Leads.stir (Kernel.Stirs.childEnds told (Turns.here rfl)) ?_
      refine Leads.answer (0 : Nat) ⟨_, rfl, rfl⟩ ?_
      refine Leads.answer (.ok (.ended (.exited 3)))
        ⟨_, Or.inl ⟨_, _, Turns.here rfl, rfl, rfl⟩, rfl⟩ ?_
      exact ReflTransGen.refl
    · rfl
  have background : ∃ session kernel,
      RunsInBackground job 0 ⟨.idle session, kernel⟩ ∧
        uncollectedOf (Kernel.slice kernel.attempts 0 job.steps.length) ≠ [] ∧
        (∀ entry ∈ session.jobs.entries, session.jobs.entries.head? = some entry) ∧
        ∃ changed after,
          Kernel.telling.Leads ⟨(Session.bringToForeground none .output).perform session, kernel⟩
            ⟨.done (.ok (), changed), after⟩ := by
    apply Exists.intro
    apply Exists.intro
    refine ⟨⟨{}, Session.ofSettings {}, {}, ?_⟩, ?_⟩
    · apply Exists.intro
      apply Exists.intro
      refine ⟨ReflTransGen.refl, rfl, ?_, ReflTransGen.refl⟩
      refine Leads.answer (.ok (⟨3⟩, ⟨4⟩)) ⟨_, ⟨rfl, rfl, by decide, rfl⟩, rfl⟩ ?_
      refine Leads.answer (.ok ⟨10⟩) ⟨_, ⟨by decide, rfl⟩, rfl⟩ ?_
      refine Leads.answer () ⟨_, rfl, rfl⟩ ?_
      refine Leads.answer (.error (.refused .noEntry)) ⟨_, ⟨false, by decide, rfl⟩, rfl⟩ ?_
      refine Leads.answer (.ok ()) ⟨_, rfl, rfl⟩ ?_
      refine Leads.answer () ⟨_, rfl, rfl⟩ ?_
      refine Leads.answer (⟨0⟩ : Moment) ⟨_, rfl, rfl⟩ ?_
      exact ReflTransGen.refl
    · refine ⟨by decide, ?_, ?_⟩
      · intro entry member
        rw [List.mem_singleton.1 member]
        rfl
      · apply Exists.intro
        apply Exists.intro
        refine Leads.answer (.ok ()) ⟨_, rfl, rfl⟩ ?_
        refine Leads.stir (Kernel.Stirs.childEnds told (Turns.here rfl)) ?_
        refine Leads.answer (0 : Nat) ⟨_, rfl, rfl⟩ ?_
        refine Leads.answer (.ok (.ended (.exited 3)))
          ⟨_, Or.inl ⟨_, _, Turns.here rfl, rfl, rfl⟩, rfl⟩ ?_
        exact ReflTransGen.refl
  obtain ⟨left, runs⟩ := foreground
  obtain ⟨session, kernel, started, remaining, oldest, changed, after, leads⟩ := background
  obtain ⟨entry, listed, -, -, agrees⟩ := bringToForeground_agrees rfl started remaining
  have asks : session.jobs.Asks none entry := Or.inr ⟨rfl, oldest entry listed⟩
  rcases agrees none .output (.ok ()) changed after asks leads with ⟨reason, equal⟩ | ⟨-, status⟩
  · cases equal
  · exact ⟨job, session, kernel, changed, after, left, started, leads, status, runs⟩

end JobControl
