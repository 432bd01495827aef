import JobControl.Proofs.Ledger.Deeds
/-!
# Every background job leaves the registry once

A history is a sequence of turns: the shell is asked for an operation, and between two operations
children may end.  The jobs registered in a history are those still listed, those told to be done,
those shown and waited for in the foreground, and those told to be terminated; no job is in two of
these places, and none is missing.
-/

namespace JobControl

open World

/-! ## Histories -/

/-- An operation that has been performed, with the states before and after it. -/
structure Turn where
  operation : Operation
  session : Session
  kernel : Kernel
  outcome : Except Stop Unit
  changed : Session
  after : Kernel

namespace Turn

/-- The operation comes to its outcome.  Waits for children succeed; text is written that is for
the output, or for the outlet that the operation was given. -/
def Happens (turn : Turn) : Prop :=
  (Kernel.hearing Ending.IsTold [.output, turn.operation.deed.outlet]).Leads
    ⟨turn.operation.activity.perform turn.session, turn.kernel⟩
    ⟨.done (turn.outcome, turn.changed), turn.after⟩

/-- The jobs for which the registry has an entry beyond those it had.  The first attempt to start
one of them was the first of the turn. -/
def registered (turn : Turn) : List Registration :=
  (turn.changed.jobs.entries.drop turn.session.jobs.entries.length).map fun entry =>
    ⟨turn.kernel.attempts.length, entry.job⟩

/-- The notices that jobs are done. -/
def done (turn : Turn) : List String :=
  turn.operation.deed.done turn.kernel turn.after

/-- The lines of jobs that were shown as they were taken to the foreground. -/
def echoed (turn : Turn) : List String :=
  turn.operation.deed.echoed turn.kernel turn.after

/-- The processes that were waited for in the foreground. -/
def waited (turn : Turn) : List Pid :=
  turn.operation.deed.waited turn.kernel turn.after

/-- The notices that jobs are terminated. -/
def terminated (turn : Turn) : List String :=
  turn.operation.deed.terminated turn.kernel turn.after

end Turn

/-- What a new shell with these settings has done until it is idle with this session. -/
inductive History (settings : Settings) : List Turn → Session → Kernel → Prop where
  | begins : History settings [] (Session.ofSettings settings) {}
  | stirs {turns : List Turn} {session : Session} {kernel after : Kernel} :
      History settings turns session kernel → Kernel.telling.stirs kernel after →
      History settings turns session after
  | turn {turns : List Turn} {turn : Turn} :
      History settings turns turn.session turn.kernel → turn.Happens →
      History settings (turns ++ [turn]) turn.changed turn.after

/-! ## Balance -/

namespace Ledger

/-- The jobs that were registered are those of the ledger, each once, and the ledger tells rightly
what has become of them. -/
structure Balances (ledger : Ledger) (turns : List Turn) (session : Session)
    (table : List Attempt) : Prop where
  registered : (turns.flatMap Turn.registered).Perm (ledger.all.map Account.registration)
  distinct : (ledger.all.map Account.registration).Nodup
  listed : session.jobs.entries = ledger.listed.map Account.entry
  done : turns.flatMap Turn.done =
    ledger.done.map fun account => Session.jobNotice account.entry "Done"
  echoed : turns.flatMap Turn.echoed =
    ledger.foregrounded.map fun account => account.entry.job.input ++ "\n"
  waited : turns.flatMap Turn.waited =
    ledger.foregrounded.flatMap fun account => account.entry.processes
  terminated : turns.flatMap Turn.terminated =
    ledger.terminated.map fun account => Session.jobNotice account.entry "Terminated"
  finished : ∀ account ∈ ledger.done ++ ledger.foregrounded, account.registration.Finished table
  named : ∀ account ∈ ledger.gone, account.IsNamed table

/-- The ledger balances, and the listed jobs are in custody. -/
structure Stands (ledger : Ledger) (turns : List Turn) (session : Session)
    (table : List Attempt) : Prop extends ledger.Balances turns session table where
  carries : session.jobs.Carries table ledger.listed

variable {ledger : Ledger} {turns : List Turn} {session : Session}

private theorem start_lt_of_whole {table : List Attempt} {account : Account}
    (whole : (account.attempts table).length = account.entry.job.steps.length) :
    account.start < table.length := by
  have positive : 0 < account.entry.job.steps.length :=
    List.length_pos_of_ne_nil account.entry.job.steps_ne_nil
  unfold Account.attempts Kernel.slice at whole
  rw [List.length_take, List.length_drop] at whole
  omega

/-- Every job of the ledger was registered before the table came to its length. -/
theorem Stands.start_lt {table : List Attempt} (stands : ledger.Stands turns session table)
    {account : Account} (member : account ∈ ledger.all) : account.start < table.length := by
  obtain listed | gone := List.mem_append.1 member
  · exact start_lt_of_whole (stands.carries.custody.follows account listed).runs.length_eq
  · exact start_lt_of_whole (stands.named account gone).1

theorem Stands.begins (settings : Settings) :
    Stands {} [] (Session.ofSettings settings) [] where
  registered := List.Perm.nil
  distinct := List.nodup_nil
  listed := rfl
  done := rfl
  echoed := rfl
  waited := rfl
  terminated := rfl
  finished := by simp
  named := by simp [gone]
  carries := ⟨⟨Orderly.nil, List.nodup_nil, by simp, by simp⟩, rfl, by simp⟩

theorem Stands.stirs {kernel after : Kernel}
    (stands : ledger.Stands turns session kernel.attempts)
    (stirred : Kernel.telling.stirs kernel after) :
    ledger.Stands turns session after.attempts := by
  have grows : Grows kernel.attempts after.attempts :=
    (Kernel.Stirs.moves stirred).grows
  exact
    { stands with
      finished := fun account member => (stands.finished account member).of_grows grows
      named := fun account member => (stands.named account member).of_grows grows
      carries := stands.carries.of_custody (stands.carries.custody.of_stirs stirred) }

/-- The ledger after an operation: what left the registry by it is added to what had left. -/
def next (ledger told : Ledger) : Ledger where
  listed := told.listed
  done := ledger.done ++ told.done
  foregrounded := ledger.foregrounded ++ told.foregrounded
  terminated := ledger.terminated ++ told.terminated

section Turning

variable {latest : Turn} {added : List Account} {told : Ledger}

theorem Tells.registered (tells : Tells latest.session latest.kernel latest.operation.deed
    ledger.listed added told latest.changed latest.after) :
    latest.registered = added.map Account.registration := by
  unfold Turn.registered
  rw [tells.entries, List.map_map]
  apply List.map_congr_left
  intro account member
  unfold Account.registration
  rw [tells.starts account member]
  rfl

/-- What was in the ledger before an operation, with what was added, is in it after. -/
theorem Tells.perm_next (tells : Tells latest.session latest.kernel latest.operation.deed
    ledger.listed added told latest.changed latest.after) :
    ((ledger.all ++ added).map Account.registration).Perm
      ((ledger.next told).all.map Account.registration) := by
  rw [List.perm_iff_count]
  intro registration
  have same := tells.same.count_eq registration
  simp only [all, gone, next, List.map_append, List.count_append] at same ⊢
  omega

/-- What is added was not in the ledger: it starts where the table ended. -/
theorem Stands.nodup_added (stands : ledger.Stands turns latest.session latest.kernel.attempts)
    (tells : Tells latest.session latest.kernel latest.operation.deed ledger.listed added told
      latest.changed latest.after) :
    ((ledger.all ++ added).map Account.registration).Nodup := by
  rw [List.map_append, List.nodup_append]
  refine ⟨stands.distinct, ?_, ?_⟩
  · have few := tells.atMostOne
    rcases added with _ | ⟨account, _ | ⟨next, rest⟩⟩
    · exact List.nodup_nil
    · exact List.nodup_singleton _
    · simp at few
  · intro one oneMember other otherMember equal
    obtain ⟨account, known, rfl⟩ := List.mem_map.1 oneMember
    obtain ⟨entered, isAdded, rfl⟩ := List.mem_map.1 otherMember
    have early := stands.start_lt known
    have late := tells.starts entered isAdded
    have same : account.start = entered.start := congrArg Registration.place equal
    omega

/-- An operation that tells what it does to the listed jobs keeps the ledger in balance. -/
theorem Stands.turn (stands : ledger.Stands turns latest.session latest.kernel.attempts)
    (tells : Tells latest.session latest.kernel latest.operation.deed ledger.listed added told
      latest.changed latest.after) :
    (ledger.next told).Stands (turns ++ [latest]) latest.changed latest.after.attempts := by
  have grows := tells.grows
  constructor
  · constructor
    · rw [List.flatMap_append, List.flatMap_singleton, tells.registered]
      have before := stands.registered.append_right (added.map Account.registration)
      rw [← List.map_append] at before
      exact before.trans tells.perm_next
    · exact tells.perm_next.nodup_iff.1 (stands.nodup_added tells)
    · exact tells.carries.entries
    · rw [List.flatMap_append, List.flatMap_singleton, stands.done, next, List.map_append]
      exact congrArg _ tells.done
    · rw [List.flatMap_append, List.flatMap_singleton, stands.echoed, next, List.map_append]
      exact congrArg _ tells.echoed
    · rw [List.flatMap_append, List.flatMap_singleton, stands.waited, next, List.flatMap_append]
      exact congrArg _ tells.waited
    · rw [List.flatMap_append, List.flatMap_singleton, stands.terminated, next, List.map_append]
      exact congrArg _ tells.terminated
    · intro account member
      have cases : account ∈ ledger.done ++ ledger.foregrounded ∨
          account ∈ told.done ++ told.foregrounded := by
        simp only [next, List.mem_append] at member ⊢
        tauto
      obtain earlier | now := cases
      · exact (stands.finished account earlier).of_grows grows
      · exact tells.finished account now
    · intro account member
      have cases : account ∈ ledger.gone ∨ account ∈ told.gone := by
        simp only [gone, next, List.mem_append] at member ⊢
        tauto
      obtain earlier | now := cases
      · exact (stands.named account earlier).of_grows grows
      · exact tells.named account now
  · exact tells.carries

end Turning

end Ledger

theorem History.stands {settings : Settings} {turns : List Turn} {session : Session}
    {kernel : Kernel} (history : History settings turns session kernel) :
    ∃ ledger : Ledger, ledger.Stands turns session kernel.attempts := by
  induction history with
  | begins => exact ⟨{}, Ledger.Stands.begins settings⟩
  | stirs _ stirred inductionHypothesis =>
      obtain ⟨ledger, stands⟩ := inductionHypothesis
      exact ⟨ledger, stands.stirs stirred⟩
  | @turn turns turn _ happens inductionHypothesis =>
      obtain ⟨ledger, stands⟩ := inductionHypothesis
      have achieved := operation_isDone turn.operation stands.carries
      obtain ⟨answered, drifts, added, told, tells⟩ := Ensures.result achieved happens
      exact ⟨ledger.next told, stands.turn (tells.of_drifts drifts)⟩

/-- In every history of a shell, the jobs that were registered are those still listed, those told
to be done, those shown and waited for in the foreground, and those told to be terminated, each of
them once.  Whenever the shell then acts on signals and is about to tell that a job is done, that
is a listed job of which every process has been collected. -/
theorem History.balances {settings : Settings} {turns : List Turn} {session : Session}
    {kernel : Kernel} (history : History settings turns session kernel) :
    ∃ ledger : Ledger, ledger.Balances turns session kernel.attempts ∧
      ∀ text next asked,
        (Kernel.hearing Ending.IsTold [.output]).Leads
            ⟨Session.processSignals.perform session, kernel⟩
            ⟨.step (.write .output text) next, asked⟩ →
          (Call.write .output text).TellsOfDone ledger.listed asked := by
  obtain ⟨ledger, stands⟩ := history.stands
  refine ⟨ledger, stands.toBalances, ?_⟩
  intro text next asked leads
  have heard : Outlet.output ∈ [Outlet.output] := List.mem_cons_self
  exact Ensures.fits_of_leads (processSignals_tellsDone stands.carries heard) leads

/-- A background job ends and is told to be done; nothing is left of it in the registry. -/
theorem History.balances_of_done_job :
    let job : Job := { input := "sleep &", first := { program := "sleep" }, background := true }
    ∃ turns session kernel, History {} turns session kernel ∧
      turns.flatMap Turn.registered = [⟨0, job⟩] ∧
      turns.flatMap Turn.done = ["[7] Done\tsleep &\n"] ∧ session.jobs.entries = [] ∧
      ∃ ledger : Ledger, ledger.Balances turns session kernel.attempts := by
  intro job
  let world := Kernel.hearing Ending.IsTold [.output, .output]
  have told : Ending.IsTold (.exited 0) := rfl
  have run : ∃ started registered ended changed after,
      world.Leads ⟨(Session.runJob job).perform (Session.ofSettings {}), {}⟩
        ⟨.done (.ok (), started), registered⟩ ∧
      Kernel.telling.stirs registered ended ∧
      world.Leads ⟨Session.processSignals.perform started, ended⟩
        ⟨.done (.ok (), changed), after⟩ ∧
      started.jobs.entries.map Entry.job = [job] ∧ changed.jobs.entries = [] ∧
      Deed.reaps.done ended after = ["[7] Done\tsleep &\n"] := by
    apply Exists.intro
    apply Exists.intro
    apply Exists.intro
    apply Exists.intro
    apply Exists.intro
    refine ⟨?_, ?_, ?_, ?_⟩
    · refine Leads.answer (.ok ⟨7⟩) ⟨⟨_, ⟨by decide, rfl⟩, rfl⟩, trivial⟩ ?_
      refine Leads.answer (⟨0⟩ : Moment) ⟨⟨_, rfl, rfl⟩, trivial⟩ ?_
      exact Relation.ReflTransGen.refl
    · exact Kernel.Stirs.childEnds told (Turns.here rfl)
    · refine Leads.answer true ⟨⟨_, ⟨rfl, rfl⟩, rfl⟩, trivial⟩ ?_
      refine Leads.answer (1 : Nat) ⟨⟨_, ⟨0, by decide, rfl⟩, rfl⟩, trivial⟩ ?_
      refine Leads.answer (.ok (some (⟨7⟩, .ended (.exited 0))))
        ⟨⟨_, .inl ⟨⟨7⟩, .exited 0, _, Turns.here rfl, rfl, rfl⟩, rfl⟩, trivial⟩ ?_
      refine Leads.answer (.ok none) ⟨⟨_, .inr (.inl ⟨rfl, rfl, rfl⟩), rfl⟩, trivial⟩ ?_
      refine Leads.answer (.ok ()) ⟨⟨_, rfl, rfl⟩, fun _ => rfl⟩ ?_
      refine Leads.answer false ⟨⟨_, rfl, rfl⟩, trivial⟩ ?_
      exact Relation.ReflTransGen.refl
    · exact ⟨rfl, rfl, rfl⟩
  obtain ⟨started, registered, ended, changed, after, first, ends, second, entries, gone,
    notice⟩ := run
  let launch : Turn := ⟨.job job, Session.ofSettings {}, {}, .ok (), started, registered⟩
  let signals : Turn := ⟨.signals, started, ended, .ok (), changed, after⟩
  have launched : History {} [launch] started registered :=
    @History.turn {} [] launch .begins first
  have history : History {} [launch, signals] changed after :=
    @History.turn {} [launch] signals (.stirs launched ends) second
  have one : launch.registered = [⟨0, job⟩] := by
    have added : started.jobs.entries.map (fun entry => Registration.mk 0 entry.job) =
        (started.jobs.entries.map Entry.job).map (Registration.mk 0) := by
      rw [List.map_map]
      rfl
    exact added.trans (congrArg (List.map (Registration.mk 0)) entries)
  have none : signals.registered = [] := by
    unfold Turn.registered
    rw [gone, List.drop_nil, List.map_nil]
  obtain ⟨ledger, balances, -⟩ := History.balances history
  refine ⟨_, changed, after, history, ?_, ?_, gone, ledger, balances⟩
  · simp [one, none]
  · exact congrArg ([] ++ ·) (congrArg (· ++ []) notice)

end JobControl
