import JobControl.Proofs.Calls
import JobControl.Proofs.Custody
/-!
# Waiting in custody

A wait for a child in custody brings its status and takes it out of custody; no such wait fails.
The shutdown signal is sent to children in custody only.
-/

namespace JobControl

open World

/-! ## Safe calls -/

/-- A child that a call waits for or signals has not been collected. -/
def Call.NamesUncollected (call : Call) (kernel : Kernel) : Prop :=
  match call with
  | .wait pid => pid ∈ kernel.uncollected
  | .sendShutdown pid => pid ∈ kernel.uncollected
  | _ => True

/-- Whether a call belongs to the reaping of any children: it takes the flag that tells of ended
children, or looks at all of them. -/
def Call.sweeps : Call → Bool
  | .takeFlag .childEnded => true
  | .lookAtChildren => true
  | _ => false

/-- A call that names no collected child and reaps no children but the one it names. -/
def Call.IsSafe (call : Call) (kernel : Kernel) : Prop :=
  call.NamesUncollected kernel ∧ call.sweeps = false

theorem Call.isSafe_of_plain {call : Call} (plain : call.isPlain = true) (kernel : Kernel) :
    call.IsSafe kernel := by
  cases call with
  | takeFlag signal =>
      cases signal with
      | childEnded => cases plain
      | shutdown => exact ⟨trivial, rfl⟩
  | launch _ => cases plain
  | wait _ => cases plain
  | lookAtChildren => cases plain
  | sendShutdown _ => cases plain
  | _ => exact ⟨trivial, rfl⟩

namespace Kernel

variable {endings : Ending → Prop} {kernel after : Kernel}

theorem uncollected_of_drifts (drifts : (Kernel.world endings).Drifts kernel after) :
    after.uncollected = kernel.uncollected :=
  (Lingers.of_drifts drifts).uncollected_eq

end Kernel

section Custody

variable {kernel : Kernel} {accounts : List Account} {loose : List Pid}

/-- A program of plain calls keeps what is in custody. -/
theorem Custody.plain {α : Type} {good : α → Prop}
    (custody : Custody kernel.attempts accounts loose) {program : Program α}
    (plain : program.Within (fun call => call.isPlain = true) good) :
    Kernel.telling.Ensures Call.IsSafe program
      (fun result after => good result ∧ Custody after.attempts accounts loose) kernel := by
  let holds : Kernel → Prop := fun kernel => Custody kernel.attempts accounts loose
  refine Program.Within.ensures ?_ ?_ ?_ plain (show holds kernel from custody)
  · exact fun before after stirs kept => Custody.of_stirs kept stirs
  · exact fun call state allowed _ => Call.isSafe_of_plain allowed state
  · intro call before given after allowed answers kept
    rw [Kernel.attempts_of_plain allowed answers]
    exact kept

theorem Custody.plain_from {table : List Attempt} {α : Type} {good : α → Prop}
    (custody : Custody table accounts loose) (same : kernel.attempts = table)
    {program : Program α} (plain : program.Within (fun call => call.isPlain = true) good) :
    Kernel.telling.Ensures Call.IsSafe program
      (fun result after => good result ∧ Custody after.attempts accounts loose) kernel := by
  subst same
  exact custody.plain plain

/-! ## Waiting -/

private theorem waitFor_safe {pid : Pid} (custody : Custody kernel.attempts accounts loose)
    (there : pid ∈ kernel.uncollected) :
    Kernel.telling.Ensures Call.IsSafe (waitFor pid).run
      (fun outcome after => ∃ status, outcome = .ok status ∧
        Custody after.attempts (accounts.map (Account.reaped pid status))
          (loose.filter fun process => process ≠ pid)) kernel := by
  refine waitFor_ensures_telling (fun _ _ => Call.isSafe_of_plain rfl _) ?_
    custody.orderly there ?_
  · intro asked lingers
    refine ⟨?_, rfl⟩
    rw [← lingers.uncollected_eq] at there
    exact there
  · intro asked ending turned lingers turns
    exact ⟨ending.status, rfl, (custody.of_ages lingers.ages).of_collecting turns⟩

/-- The processes of a job in custody are waited for, and its status is that of its entry. -/
theorem Entry.wait_safe {start : Nat} {entry : Entry}
    (custody : Custody kernel.attempts (⟨start, entry⟩ :: accounts) loose) :
    Kernel.telling.Ensures Call.IsSafe entry.wait.run
      (fun outcome after => ∃ settled : Entry, outcome = .ok settled.lastStatus ∧
        settled.job = entry.job ∧ settled.processes = [] ∧
        Custody after.attempts (⟨start, settled⟩ :: accounts) loose) kernel := by
  unfold Entry.wait
  generalize left : entry.processes = pids
  induction pids generalizing entry kernel with
  | nil =>
      exact ⟨entry, rfl, rfl, left, custody⟩
  | cons pid rest inductionHypothesis =>
      have member : pid ∈ entry.processes := by
        rw [left]
        exact List.mem_cons_self
      have apart := custody.distinct
      rw [processesOf, List.flatMap_cons, List.append_assoc, List.nodup_append, left] at apart
      obtain ⟨own, -, others⟩ := apart
      have absent : pid ∉ processesOf accounts := fun other =>
        others pid List.mem_cons_self pid (List.mem_append_left _ other) rfl
      have notLoose : pid ∉ loose := fun other =>
        others pid List.mem_cons_self pid (List.mem_append_right _ other) rfl
      rw [waitForProcesses, ensures_run_bind]
      refine (waitFor_safe custody (custody.mem_uncollected List.mem_cons_self member)).mono ?_
      rintro outcome after ⟨status, rfl, collected⟩
      have looseSame : loose.filter (fun process => process ≠ pid) = loose := by
        rw [List.filter_eq_self]
        intro process present
        exact decide_eq_true fun equal => notLoose (equal ▸ present)
      have told : (Account.mk start entry).reaped pid status =
          ⟨start, entry.afterReaping pid status⟩ := by
        simp only [Account.reaped, Entry.reaped, if_pos member]
      rw [List.map_cons, map_reaped_of_not_mem absent, looseSame, told] at collected
      have remaining : (entry.afterReaping pid status).processes = rest := by
        have unequal : ∀ process ∈ rest, process ≠ pid :=
          fun process present equal => (List.nodup_cons.1 own).1 (equal ▸ present)
        change entry.processes.filter _ = rest
        rw [left, List.filter_cons_of_neg (by simp), List.filter_eq_self]
        exact fun process present => decide_eq_true (unequal process present)
      rw [afterAction_ok]
      exact inductionHypothesis collected remaining

private theorem waitForProcesses_safe {last : Option Pid} {known : Option Int} {pids : List Pid}
    (custody : Custody kernel.attempts accounts (pids ++ loose)) :
    Kernel.telling.Ensures Call.IsSafe (waitForProcesses last known pids).run
      (fun outcome after => (∃ status, outcome = .ok status) ∧
        Custody after.attempts accounts loose) kernel := by
  induction pids generalizing known kernel with
  | nil =>
      exact ⟨⟨known, rfl⟩, custody⟩
  | cons pid rest inductionHypothesis =>
      rw [waitForProcesses, ensures_run_bind]
      refine (waitFor_safe custody (custody.loose pid (by simp))).mono ?_
      rintro outcome after ⟨status, rfl, collected⟩
      rw [afterAction_ok]
      exact inductionHypothesis (custody.drop_first collected)

/-- The process of a step that is not known to have ended. -/
def StartedStep.running? (step : StartedStep) : Option Pid :=
  match step.state with
  | .running pid => some pid
  | _ => none

theorem waitForAll_safe {started : List StartedStep}
    (custody : Custody kernel.attempts accounts
      (started.filterMap StartedStep.running? ++ loose)) :
    Kernel.telling.Ensures Call.IsSafe (waitForAll started)
      (fun result after => (∃ status, result.1 = .ok status) ∧
        Custody after.attempts accounts loose) kernel := by
  induction started generalizing kernel with
  | nil =>
      exact ⟨⟨none, rfl⟩, custody⟩
  | cons step rest inductionHypothesis =>
      have goOn : ∀ (told : StartedStep) (status : Int) (middle : Kernel),
          Custody middle.attempts accounts (rest.filterMap StartedStep.running? ++ loose) →
          Kernel.telling.Ensures Call.IsSafe
            (waitForAll rest >>= fun result =>
              pure (result.1.map fun last => some (last.getD status), told :: result.2))
            (fun result after => (∃ status, result.1 = .ok status) ∧
              Custody after.attempts accounts loose) middle := by
        intro told status middle inCustody
        rw [ensures_bind]
        refine (inductionHypothesis inCustody).mono ?_
        rintro ⟨outcome, others⟩ after ⟨⟨last, rfl⟩, kept⟩
        exact ⟨⟨_, rfl⟩, kept⟩
      rw [waitForAll, ensures_bind]
      unfold StartedStep.wait
      rw [List.filterMap_cons] at custody
      unfold StartedStep.running? at custody
      cases state : step.state with
      | running pid =>
          rw [state] at custody
          dsimp only at custody ⊢
          rw [ensures_bind]
          refine (waitFor_safe custody (custody.loose pid (by simp))).mono ?_
          rintro outcome after ⟨status, rfl, collected⟩
          exact goOn _ status after (custody.drop_first collected)
      | ended pid status =>
          rw [state] at custody
          exact goOn step status kernel custody
      | neverStarted status =>
          rw [state] at custody
          exact goOn step status kernel custody

/-! ## Signalling -/

theorem sendShutdown_safe {pids : List Pid} (custody : Custody kernel.attempts accounts loose)
    (there : ∀ pid ∈ pids, pid ∈ kernel.uncollected) :
    Kernel.telling.Ensures Call.IsSafe (sendShutdown pids)
      (fun _ after => Custody after.attempts accounts loose ∧
        after.uncollected = kernel.uncollected) kernel := by
  induction pids generalizing kernel with
  | nil =>
      exact ⟨custody, rfl⟩
  | cons pid rest inductionHypothesis =>
      rw [sendShutdown, ensures_bind, ensures_ask]
      intro asked drifts
      have same : asked.uncollected = kernel.uncollected := Kernel.uncollected_of_drifts drifts
      refine ⟨⟨?_, rfl⟩, ?_⟩
      · change pid ∈ asked.uncollected
        rw [same]
        exact there pid List.mem_cons_self
      · rintro given after ⟨answered, rfl, rfl⟩
        have remaining : ∀ process ∈ rest, process ∈ answered.uncollected := by
          intro process member
          rw [same]
          exact there process (List.mem_cons_of_mem pid member)
        have kept : Custody answered.attempts accounts loose := custody.of_drifts drifts
        refine Ensures.mono (inductionHypothesis kept remaining) ?_
        exact fun _ _ reached => ⟨reached.1, reached.2.trans same⟩

theorem stopProcesses_safe {pids : List Pid}
    (custody : Custody kernel.attempts accounts (pids ++ loose)) :
    Kernel.telling.Ensures Call.IsSafe (stopProcesses pids).run
      (fun outcome after => outcome = .ok () ∧ Custody after.attempts accounts loose) kernel := by
  unfold stopProcesses
  rw [ensures_run_bind, ensures_run_lift]
  refine (sendShutdown_safe custody
    fun pid member => custody.loose pid (List.mem_append_left _ member)).mono ?_
  rintro _ signalled ⟨inCustody, -⟩
  rw [afterAction_ok, ensures_run_bind]
  refine (waitForProcesses_safe inCustody).mono ?_
  rintro outcome after ⟨⟨status, rfl⟩, kept⟩
  exact ⟨rfl, kept⟩

end Custody

end JobControl
