import JobControl.Proofs.Account
import JobControl.Proofs.Kernel.Waits
import Mathlib.Data.List.Flatten
/-!
# Custody of children

What a session has in its custody at a moment: the background jobs that it knows, each with the
place of its attempts in the kernel's table, and loose processes that it has started or taken out
of its registry.  Each of these processes is a child that has not been collected, and none is
there twice.  Custody is kept by everything that happens to the table; when a child is collected,
the one who had it loses it.
-/

namespace JobControl

/-- A background job that the session knows, and where its first attempt is in the table. -/
structure Account where
  start : Nat
  entry : Entry
  deriving DecidableEq, Repr

namespace Account

/-- The attempts to start the steps of the job. -/
def attempts (account : Account) (table : List Attempt) : List Attempt :=
  Kernel.slice table account.start account.entry.job.steps.length

/-- The account after a process was reaped, whether it is one of the account's or not. -/
def reaped (pid : Pid) (status : Int) (account : Account) : Account :=
  { account with entry := account.entry.reaped pid status }

/-- Whether a process of the job has not been reaped. -/
def isOpen (account : Account) : Bool :=
  !account.entry.processes.isEmpty

@[simp]
theorem reaped_start (pid : Pid) (status : Int) (account : Account) :
    (account.reaped pid status).start = account.start :=
  rfl

@[simp]
theorem reaped_job (pid : Pid) (status : Int) (account : Account) :
    (account.reaped pid status).entry.job = account.entry.job :=
  account.entry.reaped_job pid status

theorem attempts_reaped (pid : Pid) (status : Int) (account : Account) (table : List Attempt) :
    (account.reaped pid status).attempts table = account.attempts table := by
  simp only [attempts, reaped_start, reaped_job]

theorem reaped_of_not_mem {pid : Pid} {account : Account}
    (absent : pid ∉ account.entry.processes) (status : Int) :
    account.reaped pid status = account := by
  unfold reaped
  rw [Entry.reaped_of_not_mem absent]

end Account

/-- The processes of some background jobs. -/
def processesOf (accounts : List Account) : List Pid :=
  accounts.flatMap fun account => account.entry.processes

private theorem mem_processesOf {accounts : List Account} {account : Account} {pid : Pid}
    (known : account ∈ accounts) (member : pid ∈ account.entry.processes) :
    pid ∈ processesOf accounts :=
  List.mem_flatMap.2 ⟨account, known, member⟩

private theorem processesOf_reaped (accounts : List Account) (pid : Pid) (status : Int) :
    processesOf (accounts.map (Account.reaped pid status)) =
      (processesOf accounts).filter fun process => process ≠ pid := by
  induction accounts with
  | nil => rfl
  | cons account rest inductionHypothesis =>
      unfold processesOf at inductionHypothesis ⊢
      rw [List.map_cons, List.flatMap_cons, List.flatMap_cons, List.filter_append,
        inductionHypothesis]
      congr 1
      exact account.entry.reaped_processes pid status

theorem map_reaped_of_not_mem {accounts : List Account} {pid : Pid}
    (absent : pid ∉ processesOf accounts) (status : Int) :
    accounts.map (Account.reaped pid status) = accounts := by
  have same : ∀ account ∈ accounts, account.reaped pid status = account :=
    fun account known =>
      Account.reaped_of_not_mem (fun member => absent (mem_processesOf known member)) status
  rw [List.map_congr_left same, List.map_id'']
  exact fun _ => rfl

/-! ## Stretches of a table -/

theorem Kernel.slice_sublist (attempts : List Attempt) (start count : Nat) :
    (Kernel.slice attempts start count).Sublist attempts :=
  (List.take_sublist count _).trans (List.drop_sublist start attempts)

private theorem Kernel.mem_uncollectedOf_slice {attempts : List Attempt} {start count : Nat}
    {pid : Pid} (member : pid ∈ uncollectedOf (Kernel.slice attempts start count)) :
    pid ∈ uncollectedOf attempts :=
  ((Kernel.slice_sublist attempts start count).filterMap _).subset member

private theorem Kernel.slice_append {attempts : List Attempt} {start count : Nat}
    (full : (Kernel.slice attempts start count).length = count) (added : List Attempt) :
    Kernel.slice (attempts ++ added) start count = Kernel.slice attempts start count := by
  unfold Kernel.slice at full ⊢
  rw [List.length_take, List.length_drop] at full
  rcases Nat.eq_zero_or_pos count with rfl | positive
  · simp only [List.take_zero]
  · rw [List.drop_append_of_le_length (by omega), List.take_append_of_le_length]
    rw [List.length_drop]
    omega

namespace Turns

variable {attempts turned : List Attempt} {pid : Pid} {ending : Ending}

theorem mem_uncollected
    (turns : Turns (.ended pid ending) (.collected pid ending) attempts turned) :
    pid ∈ uncollectedOf attempts :=
  (turns.uncollected_perm.mem_iff).2 List.mem_cons_self

theorem not_mem_uncollected
    (turns : Turns (.ended pid ending) (.collected pid ending) attempts turned)
    (distinct : (uncollectedOf attempts).Nodup) :
    pid ∉ uncollectedOf turned :=
  (List.nodup_cons.1 ((turns.uncollected_perm.nodup_iff).1 distinct)).1

end Turns

/-! ## Custody -/

/-- The background jobs are known rightly, the loose processes have not been collected, and no
process is there twice. -/
structure Custody (table : List Attempt) (accounts : List Account) (loose : List Pid) : Prop where
  orderly : Orderly Ending.IsTold table
  distinct : (processesOf accounts ++ loose).Nodup
  loose : ∀ pid ∈ loose, pid ∈ uncollectedOf table
  follows : ∀ account ∈ accounts, account.entry.Follows (account.attempts table)

namespace Custody

variable {table after : List Attempt} {accounts : List Account} {loose : List Pid}

theorem mem_uncollected (custody : Custody table accounts loose) {account : Account}
    (known : account ∈ accounts) {pid : Pid} (member : pid ∈ account.entry.processes) :
    pid ∈ uncollectedOf table := by
  rw [(custody.follows account known).processes] at member
  exact Kernel.mem_uncollectedOf_slice member

theorem processes_mem_uncollected (custody : Custody table accounts loose) {pid : Pid}
    (member : pid ∈ processesOf accounts) : pid ∈ uncollectedOf table := by
  obtain ⟨account, known, inside⟩ := List.mem_flatMap.1 member
  exact custody.mem_uncollected known inside

/-- What is not the collecting of a child changes nothing in what is in custody. -/
theorem of_turns_ending (custody : Custody table accounts loose) {pid : Pid} {ending : Ending}
    (told : ending.IsTold) (turns : Turns (.running pid) (.ended pid ending) table after) :
    Custody after accounts loose where
  orderly := custody.orderly.of_moves (.ends told turns)
  distinct := custody.distinct
  loose := by
    rw [turns.uncollected_eq rfl]
    exact custody.loose
  follows := by
    intro account known
    have follows := custody.follows account known
    rcases turns.slice account.start account.entry.job.steps.length with same | inside
    · rw [Account.attempts, same]
      exact follows
    · exact follows.of_ends inside

theorem of_append (custody : Custody table accounts loose) {attempt : Attempt}
    (orderly : Orderly Ending.IsTold (table ++ [attempt])) :
    Custody (table ++ [attempt]) accounts loose where
  orderly := orderly
  distinct := custody.distinct
  loose := by
    intro pid member
    have earlier := custody.loose pid member
    unfold uncollectedOf at earlier ⊢
    rw [List.filterMap_append]
    exact List.mem_append_left _ earlier
  follows := by
    intro account known
    have follows := custody.follows account known
    rw [Account.attempts, Kernel.slice_append follows.runs.length_eq]
    exact follows

/-- When a child is collected, the job it belongs to is told, and it is not loose any more. -/
theorem of_collecting (custody : Custody table accounts loose) {pid : Pid} {ending : Ending}
    (turns : Turns (.ended pid ending) (.collected pid ending) table after) :
    Custody after (accounts.map (Account.reaped pid ending.status))
      (loose.filter fun process => process ≠ pid) where
  orderly := custody.orderly.of_moves (.collects turns)
  distinct := by
    rw [processesOf_reaped, ← List.filter_append]
    exact custody.distinct.filter _
  loose := by
    intro other member
    rw [← turns.uncollected_filter custody.orderly.distinct]
    rw [List.mem_filter] at member ⊢
    exact ⟨custody.loose other member.1, member.2⟩
  follows := by
    intro told known
    obtain ⟨account, before, rfl⟩ := List.mem_map.1 known
    have follows := custody.follows account before
    rw [Account.attempts_reaped]
    rcases turns.slice account.start account.entry.job.steps.length with same | inside
    · have absent : pid ∉ account.entry.processes := by
        intro member
        rw [follows.processes, Account.attempts, ← same] at member
        exact turns.not_mem_uncollected custody.orderly.distinct
          (Kernel.mem_uncollectedOf_slice member)
      rw [Account.reaped_of_not_mem absent, Account.attempts, same]
      exact follows
    · have member : pid ∈ account.entry.processes := by
        rw [follows.processes]
        exact inside.mem_uncollected
      simp only [Account.reaped, Entry.reaped, if_pos member]
      exact follows.afterReaping inside

theorem drop_first {pid : Pid} (custody : Custody table accounts (pid :: loose)) {status : Int}
    (collected : Custody after (accounts.map (Account.reaped pid status))
      ((pid :: loose).filter fun process => process ≠ pid)) :
    Custody after accounts loose := by
  have distinct := custody.distinct
  rw [List.nodup_append] at distinct
  obtain ⟨-, ownDistinct, apart⟩ := distinct
  have absent : pid ∉ processesOf accounts := fun member =>
    apart pid member pid List.mem_cons_self rfl
  have unequal : ∀ process ∈ loose, process ≠ pid :=
    fun process present equal => (List.nodup_cons.1 ownDistinct).1 (equal ▸ present)
  have remaining : (pid :: loose).filter (fun process => process ≠ pid) = loose := by
    rw [List.filter_cons_of_neg (by simp), List.filter_eq_self]
    exact fun process present => decide_eq_true (unequal process present)
  rwa [map_reaped_of_not_mem absent, remaining] at collected

/-- Whatever moves without collecting a child keeps what is in custody. -/
theorem of_stirs {before next : Kernel} (custody : Custody before.attempts accounts loose)
    (stirs : Kernel.Stirs Ending.IsTold before next) :
    Custody next.attempts accounts loose := by
  cases stirs with
  | childEnds told turns => exact custody.of_turns_ending told turns
  | alarm => exact custody

theorem of_ages {aged : List Attempt} (custody : Custody table accounts loose)
    (ages : Ages Ending.IsTold table aged) : Custody aged accounts loose := by
  induction ages with
  | refl => exact custody
  | tail _ turned inductionHypothesis =>
      obtain ⟨pid, ending, told, turns⟩ := turned
      exact inductionHypothesis.of_turns_ending told turns

theorem of_drifts {before next : Kernel} (custody : Custody before.attempts accounts loose)
    (drifts : Kernel.telling.Drifts before next) :
    Custody next.attempts accounts loose :=
  custody.of_ages (Kernel.ages_of_drifts drifts)

/-! ### Taking things in and out -/

theorem take_loose (custody : Custody table accounts loose) {pid : Pid}
    (there : pid ∈ uncollectedOf table) (new : pid ∉ processesOf accounts ++ loose) :
    Custody table accounts (loose ++ [pid]) where
  orderly := custody.orderly
  distinct := by
    rw [← List.append_assoc, List.nodup_append]
    refine ⟨custody.distinct, List.nodup_singleton pid, ?_⟩
    intro other member last lastMember equal
    rw [List.mem_singleton.1 lastMember] at equal
    exact new (equal ▸ member)
  loose := by
    intro other member
    rcases List.mem_append.1 member with earlier | last
    · exact custody.loose other earlier
    · rw [List.mem_singleton.1 last]
      exact there
  follows := custody.follows

theorem sublist (custody : Custody table accounts loose) {fewer : List Account}
    {less : List Pid} (accountsLeft : fewer.Sublist accounts) (looseLeft : less.Sublist loose) :
    Custody table fewer less where
  orderly := custody.orderly
  distinct := by
    refine custody.distinct.sublist (List.Sublist.append ?_ looseLeft)
    exact accountsLeft.flatMap _
  loose := fun pid member => custody.loose pid (looseLeft.subset member)
  follows := fun account known => custody.follows account (accountsLeft.subset known)

theorem perm (custody : Custody table accounts loose) {others : List Account}
    (accountsSame : accounts.Perm others) : Custody table others loose where
  orderly := custody.orderly
  distinct := by
    refine ((List.Perm.append_right loose ?_).nodup_iff).1 custody.distinct
    exact accountsSame.flatMap_right _
  loose := custody.loose
  follows := fun account known => custody.follows account (accountsSame.mem_iff.2 known)

/-- Loose processes that are those of a job are the job's once it is registered. -/
theorem register {account : Account}
    (custody : Custody table accounts (account.entry.processes ++ loose))
    (follows : account.entry.Follows (account.attempts table)) :
    Custody table (accounts ++ [account]) loose where
  orderly := custody.orderly
  distinct := by
    have distinct := custody.distinct
    unfold processesOf at distinct ⊢
    rw [List.flatMap_append, List.flatMap_singleton, List.append_assoc]
    exact distinct
  loose := fun pid member => custody.loose pid (List.mem_append_right _ member)
  follows := by
    intro other known
    rcases List.mem_append.1 known with earlier | last
    · exact custody.follows other earlier
    · rw [List.mem_singleton.1 last]
      exact follows

end Custody

end JobControl
