import JobControl.Proofs.ForegroundStatus
import JobControl.Proofs.Records
import JobControl.Proofs.Registry
/-!
# Jobs that the registry carries

A registration is known by its job and by the place of the job's first attempt in the kernel's
table.  The registry carries the jobs that are listed, each with a process left; when a reaped
process is noted, the jobs are those of before, and a job that is taken out by it is finished:
every process that was started for it has been collected.
-/

namespace JobControl

open World

private theorem Life.Becomes.pid?_eq {before after : Life} (becomes : before.Becomes after) :
    after.pid? = before.pid? := by
  cases becomes <;> rfl

/-! ## Registrations -/

/-- A job that was registered, and where its first attempt is in the table. -/
structure Registration where
  place : Nat
  job : Job
  deriving DecidableEq, Repr

/-- The attempts to start the steps of the job. -/
def Registration.attempts (registration : Registration) (table : List Attempt) : List Attempt :=
  Kernel.slice table registration.place registration.job.steps.length

/-- Every step of the job was refused, or its process has been collected. -/
structure Registration.Finished (registration : Registration) (table : List Attempt) : Prop where
  whole : (registration.attempts table).length = registration.job.steps.length
  settled : Settled (registration.attempts table)

theorem Registration.Finished.of_grows {registration : Registration} {table after : List Attempt}
    (finished : registration.Finished table) (grows : Grows table after) :
    registration.Finished after where
  whole := grows.whole finished.whole
  settled := by
    intro attempt member
    obtain ⟨earlier, there, lives, -⟩ := grows.mem_slice finished.whole member
    obtain ⟨outcome, known⟩ := finished.settled earlier there
    refine ⟨outcome, ?_⟩
    generalize earlier.life = before at lives known
    generalize attempt.life = life at lives
    cases lives with
    | same => exact known
    | ends => cases known
    | isCollected => cases known
    | endsAndIsCollected => cases known

namespace Account

/-- The registration that the account is of. -/
def registration (account : Account) : Registration :=
  ⟨account.start, account.entry.job⟩

@[simp]
theorem registration_reaped (pid : Pid) (status : Int) (account : Account) :
    (account.reaped pid status).registration = account.registration := by
  unfold registration
  rw [reaped_start, reaped_job]

private theorem entry_reaped {account : Account} {pid : Pid}
    (member : pid ∈ account.entry.processes) (status : Int) :
    (account.reaped pid status).entry = account.entry.afterReaping pid status :=
  if_pos member

/-- The entry is known by a child of its job. -/
def IsNamed (account : Account) (table : List Attempt) : Prop :=
  (account.attempts table).length = account.entry.job.steps.length ∧
    account.entry.pid ∈ (account.attempts table).filterMap fun attempt => attempt.life.pid?

theorem IsNamed.of_grows {account : Account} {table after : List Attempt}
    (named : account.IsNamed table) (grows : Grows table after) : account.IsNamed after := by
  obtain ⟨whole, member⟩ := named
  refine ⟨grows.whole whole, ?_⟩
  obtain ⟨attempt, there, lived⟩ := List.mem_filterMap.1 member
  obtain ⟨place, inside, rfl⟩ := List.mem_iff_getElem.1 there
  have early : place < account.entry.job.steps.length := by omega
  have found : (account.attempts table)[place]? = table[account.start + place]? :=
    Kernel.getElem?_slice early
  rw [List.getElem?_eq_getElem inside] at found
  obtain ⟨aged, agedFound, becomes⟩ := grows _ _ found.symm
  have same : (account.attempts after)[place]? = after[account.start + place]? :=
    Kernel.getElem?_slice early
  rw [agedFound] at same
  exact List.mem_filterMap.2 ⟨aged, List.mem_of_getElem? same, becomes.1.pid?_eq ▸ lived⟩

/-- An entry keeps its last name when it has no process left. -/
theorem IsNamed.reaped {account : Account} {table : List Attempt} {pid : Pid} {status : Int}
    (named : account.IsNamed table) (member : pid ∈ account.entry.processes)
    (finished : (account.entry.afterReaping pid status).processes = []) :
    (account.reaped pid status).IsNamed table := by
  have lastName : (account.entry.afterReaping pid status).pid =
      (account.entry.afterReaping pid status).processes.getLastD account.entry.pid := rfl
  rw [finished, List.getLastD_nil] at lastName
  unfold IsNamed
  rw [attempts_reaped, entry_reaped member, lastName]
  exact named

end Account

namespace Custody

variable {table : List Attempt} {accounts : List Account} {loose : List Pid} {account : Account}

/-- A job in custody without processes is finished. -/
theorem finished (custody : Custody table accounts loose) (known : account ∈ accounts)
    (empty : account.entry.processes = []) : account.registration.Finished table := by
  have follows := custody.follows account known
  exact ⟨follows.runs.length_eq, (follows.settled empty).1⟩

theorem isNamed (custody : Custody table accounts loose) (known : account ∈ accounts)
    (isOpen : account.isOpen) : account.IsNamed table := by
  have follows := custody.follows account known
  have member := custody.pid_mem known isOpen
  rw [follows.processes] at member
  exact ⟨follows.runs.length_eq, (uncollectedOf_sublist_pids _).subset member⟩

/-- Of the jobs in custody, the one that has a reaped process is told. -/
theorem map_reaped {before after : List Account} {pid : Pid}
    (custody : Custody table (before ++ account :: after) loose)
    (member : pid ∈ account.entry.processes) (status : Int) :
    (before ++ account :: after).map (Account.reaped pid status) =
      before ++ account.reaped pid status :: after := by
  have distinct := (List.nodup_append.1 custody.distinct).1
  unfold processesOf at distinct
  rw [List.flatMap_append, List.flatMap_cons] at distinct
  have notBefore : pid ∉ processesOf before := by
    intro earlier
    have apart := (List.nodup_append.1 distinct).2.2 pid earlier pid
    exact apart (List.mem_append_left _ member) rfl
  have notAfter : pid ∉ processesOf after := by
    intro later
    have others := (List.nodup_append.1 distinct).2.1
    exact (List.nodup_append.1 others).2.2 pid member pid later rfl
  rw [List.map_append, List.map_cons, map_reaped_of_not_mem notBefore,
    map_reaped_of_not_mem notAfter]

/-- When a process is collected, its job is in custody without it, and the others as before. -/
theorem collects {before others : List Account} {after : List Attempt} {pid : Pid}
    {ending : Ending} (custody : Custody table (before ++ account :: others) [])
    (member : pid ∈ account.entry.processes)
    (turns : Turns (.ended pid ending) (.collected pid ending) table after) :
    Custody after (before ++ account.reaped pid ending.status :: others) [] := by
  have collected := custody.of_collecting turns
  rw [custody.map_reaped member, List.filter_nil] at collected
  exact collected

end Custody

/-! ## What the registry carries -/

/-- The registry lists these jobs; each of them is in custody and has a process left. -/
structure Registry.Carries (registry : Registry) (table : List Attempt)
    (listed : List Account) : Prop where
  custody : Custody table listed []
  entries : registry.entries = listed.map Account.entry
  isOpen : ∀ account ∈ listed, account.isOpen = true

/-- Some of the jobs that were listed are left; the others are done, and each was known by one of
its children. -/
structure Registry.Completes (registry : Registry) (table : List Attempt)
    (listed left : List Account) (completed : List Entry) (done : List Account) : Prop where
  carries : registry.Carries table left
  completed : completed = done.map Account.entry
  same : (listed.map Account.registration).Perm ((left ++ done).map Account.registration)
  finished : ∀ account ∈ done, account.registration.Finished table
  named : ∀ account ∈ done, account.IsNamed table

namespace Registry

variable {registry : Registry} {table after : List Attempt} {listed : List Account}

theorem Carries.inCustody (carries : registry.Carries table listed) :
    registry.InCustody table listed := by
  refine ⟨carries.custody, ?_⟩
  unfold Lists entriesOf
  rw [carries.entries, List.filter_eq_self.2 carries.isOpen]

/-- A registry carries those of the jobs in its custody that have a process left. -/
theorem InCustody.carries {accounts : List Account} (held : registry.InCustody table accounts) :
    registry.Carries table (accounts.filter Account.isOpen) where
  custody := held.custody.sublist List.filter_sublist (List.Sublist.refl [])
  entries := held.lists
  isOpen := fun _ member => (List.mem_filter.1 member).2

theorem Carries.of_custody (carries : registry.Carries table listed)
    (custody : Custody after listed []) : registry.Carries after listed :=
  ⟨custody, carries.entries, carries.isOpen⟩

/-- When no reaped process is noted, all jobs are left. -/
theorem Carries.completes (carries : registry.Carries table listed) :
    registry.Completes table listed listed [] [] where
  carries := carries
  completed := rfl
  same := by rw [List.append_nil]
  finished := by simp
  named := by simp

/-- What was left is listed when more is noted. -/
theorem Completes.trans {changed : Registry} {left rest done more : List Account}
    {completed later : List Entry} (first : registry.Completes table listed left completed done)
    (second : changed.Completes after left rest later more) (grows : Grows table after) :
    changed.Completes after listed rest (completed ++ later) (done ++ more) where
  carries := second.carries
  completed := by rw [first.completed, second.completed, List.map_append]
  same := by
    have others := second.same.append_left (done.map Account.registration)
    rw [← List.map_append, ← List.map_append] at others
    calc
      List.Perm _ ((left ++ done).map Account.registration) := first.same
      List.Perm _ ((done ++ left).map Account.registration) := List.perm_append_comm.map _
      List.Perm _ ((done ++ (rest ++ more)).map Account.registration) := others
      List.Perm _ ((rest ++ (done ++ more)).map Account.registration) :=
        (List.perm_append_comm_assoc done rest more).map _
  finished := by
    intro account member
    obtain earlier | later := List.mem_append.1 member
    · exact (first.finished account earlier).of_grows grows
    · exact second.finished account later
  named := by
    intro account member
    obtain earlier | later := List.mem_append.1 member
    · exact (first.named account earlier).of_grows grows
    · exact second.named account later

section Noting

variable {changed : Registry} {front tail : List Account} {account : Account} {pid : Pid}
variable {ending : Ending}

/-- A job that loses a process but not its last one is left with the others. -/
theorem Carries.loses (carries : registry.Carries table (front ++ account :: tail))
    (turns : Turns (.ended pid ending) (.collected pid ending) table after)
    (member : pid ∈ account.entry.processes)
    (left : (account.entry.afterReaping pid ending.status).processes ≠ [])
    (remaining : changed.entries = front.map Account.entry ++
      account.entry.afterReaping pid ending.status :: tail.map Account.entry) :
    changed.Completes after (front ++ account :: tail)
      (front ++ account.reaped pid ending.status :: tail) [] [] where
  carries := by
    refine ⟨carries.custody.collects member turns, ?_, ?_⟩
    · rw [remaining, List.map_append, List.map_cons, Account.entry_reaped member]
    · intro other known
      rw [List.mem_append, List.mem_cons] at known
      obtain earlier | rfl | later := known
      · exact carries.isOpen other (List.mem_append_left _ earlier)
      · rw [Account.isOpen, Account.entry_reaped member, Bool.not_eq_true',
          List.isEmpty_eq_false_iff]
        exact left
      · exact carries.isOpen other (List.mem_append_right _ (List.mem_cons_of_mem _ later))
  completed := rfl
  same := by simp
  finished := by simp
  named := by simp

/-- A job that loses its last process is done. -/
theorem Carries.finishes (carries : registry.Carries table (front ++ account :: tail))
    (turns : Turns (.ended pid ending) (.collected pid ending) table after)
    (member : pid ∈ account.entry.processes)
    (finished : (account.entry.afterReaping pid ending.status).processes = [])
    (remaining : changed.entries = front.map Account.entry ++ tail.map Account.entry) :
    changed.Completes after (front ++ account :: tail) (front ++ tail)
      [account.entry.afterReaping pid ending.status] [account.reaped pid ending.status] where
  carries := by
    have collected := carries.custody.collects member turns
    have fewer := (List.sublist_cons_self (account.reaped pid ending.status) tail).append_left front
    refine ⟨collected.sublist fewer (List.Sublist.refl []), ?_, ?_⟩
    · rw [remaining, List.map_append]
    · intro other known
      have there := (List.sublist_cons_self account tail).append_left front
      exact carries.isOpen other (there.subset known)
  completed := by rw [List.map_singleton, Account.entry_reaped member]
  same := by
    have moved : (front ++ account :: tail).Perm (account :: (front ++ tail)) := List.perm_middle
    have last : (account :: (front ++ tail)).Perm (front ++ tail ++ [account]) :=
      (List.perm_append_singleton account (front ++ tail)).symm
    have same : (front ++ tail ++ [account.reaped pid ending.status]).map Account.registration =
        (front ++ tail ++ [account]).map Account.registration := by simp
    rw [same]
    exact (moved.trans last).map Account.registration
  finished := by
    intro other known
    rw [List.mem_singleton.1 known]
    apply (carries.custody.collects member turns).finished
    · exact List.mem_append_right _ List.mem_cons_self
    · rw [Account.entry_reaped member, finished]
  named := by
    intro other known
    have inside : account ∈ front ++ account :: tail :=
      List.mem_append_right _ List.mem_cons_self
    have named := carries.custody.isNamed inside (carries.isOpen account inside)
    rw [List.mem_singleton.1 known]
    exact (named.of_grows (.of_turns (.isCollected pid ending) turns)).reaped member finished

/-- When a process of no listed job is collected, the same jobs are listed. -/
theorem Carries.of_stranger (carries : registry.Carries table listed)
    (turns : Turns (.ended pid ending) (.collected pid ending) table after)
    (strange : ∀ account ∈ listed, pid ∉ account.entry.processes) :
    registry.Carries after listed := by
  have absent : pid ∉ processesOf listed := by
    intro member
    obtain ⟨account, known, inside⟩ := List.mem_flatMap.1 member
    exact strange account known inside
  have collected := carries.custody.of_collecting turns
  rw [map_reaped_of_not_mem absent, List.filter_nil] at collected
  exact carries.of_custody collected

/-- A reaped process is noted: its job is left with the others, or it is done. -/
theorem Carries.markReaped (carries : registry.Carries table listed)
    (turns : Turns (.ended pid ending) (.collected pid ending) table after) :
    ∃ left done, (registry.markReaped pid ending.status).2.Completes after listed left
      (registry.markReaped pid ending.status).1.toList done := by
  have reaps := registry.markReaped_reaps pid ending.status
  generalize registry.markReaped pid ending.status = result at reaps
  obtain ⟨completed, changed⟩ := result
  dsimp only at reaps ⊢
  rw [carries.entries] at reaps
  generalize listing : listed.map Account.entry = entries at reaps
  generalize remaining : changed.entries = rest at reaps
  cases reaps with
  | stranger strange =>
      have others : ∀ account ∈ listed, pid ∉ account.entry.processes := by
        intro account known
        apply strange
        rw [← listing]
        exact List.mem_map_of_mem known
      have carried : changed.Carries after listed :=
        ⟨(carries.of_stranger turns others).custody, remaining.trans listing.symm, carries.isOpen⟩
      exact ⟨listed, [], carried.completes⟩
  | @continues before others entry member left =>
      obtain ⟨front, back, rfl, rfl, backListing⟩ := List.map_eq_append_iff.1 listing
      obtain ⟨account, tail, rfl, rfl, rfl⟩ := List.map_eq_cons_iff.1 backListing
      exact ⟨_, [], carries.loses turns member left remaining⟩
  | @completes before others entry member finished =>
      obtain ⟨front, back, rfl, rfl, backListing⟩ := List.map_eq_append_iff.1 listing
      obtain ⟨account, tail, rfl, rfl, rfl⟩ := List.map_eq_cons_iff.1 backListing
      exact ⟨front ++ tail, _, carries.finishes turns member finished remaining⟩

end Noting

end Registry

end JobControl
