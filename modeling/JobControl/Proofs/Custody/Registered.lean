import JobControl.Proofs.Custody
import JobControl.Proofs.Registry
/-!
# Registered jobs

The registry lists the background jobs in custody that have a process left, in order.  What the
registry notes, takes out and enters are the changes of custody: the entries that a look at the
children leaves are those of the jobs told of it.
-/

namespace JobControl

/-- The entries of the jobs that have a process left. -/
def entriesOf (accounts : List Account) : List Entry :=
  (accounts.filter Account.isOpen).map Account.entry

/-- A registry lists the jobs in custody that have a process left. -/
def Registry.Lists (registry : Registry) (accounts : List Account) : Prop :=
  registry.entries = entriesOf accounts

/-- Every job in custody before is there after. -/
def Keeps (before after : List Account) : Prop :=
  ∀ account ∈ before, ∃ kept ∈ after,
    kept.start = account.start ∧ kept.entry.job = account.entry.job

namespace Keeps

theorem refl (accounts : List Account) : Keeps accounts accounts :=
  fun account known => ⟨account, known, rfl, rfl⟩

theorem trans {first second third : List Account} (left : Keeps first second)
    (right : Keeps second third) : Keeps first third := by
  intro account known
  obtain ⟨kept, still, start, job⟩ := left account known
  obtain ⟨last, there, lastStart, lastJob⟩ := right kept still
  exact ⟨last, there, lastStart.trans start, lastJob.trans job⟩

theorem reaped (accounts : List Account) (pid : Pid) (status : Int) :
    Keeps accounts (accounts.map (Account.reaped pid status)) :=
  fun account known =>
    ⟨account.reaped pid status, List.mem_map_of_mem known, rfl, account.reaped_job pid status⟩

theorem append (accounts added : List Account) : Keeps accounts (accounts ++ added) :=
  fun account known => ⟨account, List.mem_append_left added known, rfl, rfl⟩

end Keeps

/-! ## Entries -/

private theorem entriesOf_cons_open {account : Account} (isOpen : account.isOpen)
    (rest : List Account) :
    entriesOf (account :: rest) = account.entry :: entriesOf rest := by
  unfold entriesOf
  rw [List.filter_cons_of_pos isOpen, List.map_cons]

private theorem entriesOf_cons_settled {account : Account} (settled : account.isOpen = false)
    (rest : List Account) :
    entriesOf (account :: rest) = entriesOf rest := by
  unfold entriesOf
  rw [List.filter_cons_of_neg (by simp [settled])]

theorem mem_entriesOf {accounts : List Account} {entry : Entry} :
    entry ∈ entriesOf accounts ↔
      ∃ account ∈ accounts, account.isOpen ∧ account.entry = entry := by
  simp only [entriesOf, List.mem_map, List.mem_filter, and_assoc]

theorem processes_entriesOf (accounts : List Account) :
    (entriesOf accounts).flatMap Entry.processes = processesOf accounts := by
  induction accounts with
  | nil => rfl
  | cons account rest inductionHypothesis =>
      unfold processesOf at inductionHypothesis ⊢
      rw [List.flatMap_cons]
      cases state : account.isOpen with
      | true =>
          rw [entriesOf_cons_open state, List.flatMap_cons, inductionHypothesis]
      | false =>
          have settled : account.entry.processes = [] := by
            simpa [Account.isOpen] using state
          rw [entriesOf_cons_settled state, settled, List.nil_append, inductionHypothesis]

/-- Noting a reaped process in the entries tells the one job that has it. -/
theorem reapIn_entriesOf {accounts : List Account} (distinct : (processesOf accounts).Nodup)
    (pid : Pid) (status : Int) :
    (Registry.reapIn pid status (entriesOf accounts)).2 =
      entriesOf (accounts.map (Account.reaped pid status)) := by
  induction accounts with
  | nil => rfl
  | cons account rest inductionHypothesis =>
      rw [processesOf, List.flatMap_cons, List.nodup_append] at distinct
      obtain ⟨-, others, apart⟩ := distinct
      rw [List.map_cons]
      by_cases member : pid ∈ account.entry.processes
      · have isOpen : account.isOpen := by
          have nonempty := List.ne_nil_of_mem member
          simpa [Account.isOpen] using nonempty
        have absent : pid ∉ processesOf rest := fun other => apart pid member pid other rfl
        have told : (account.reaped pid status).entry = account.entry.afterReaping pid status :=
          if_pos member
        rw [entriesOf_cons_open isOpen, map_reaped_of_not_mem absent, Registry.reapIn,
          if_pos member]
        cases left : (account.entry.afterReaping pid status).processes.isEmpty with
        | true =>
            have settled : (account.reaped pid status).isOpen = false := by
              rw [Account.isOpen, told, left, Bool.not_true]
            rw [entriesOf_cons_settled settled]
            simp only [left, if_true]
        | false =>
            have stillOpen : (account.reaped pid status).isOpen = true := by
              rw [Account.isOpen, told, left, Bool.not_false]
            rw [entriesOf_cons_open stillOpen, told]
            simp only [left, Bool.false_eq_true, if_false]
      · rw [Account.reaped_of_not_mem member]
        cases state : account.isOpen with
        | true =>
            rw [entriesOf_cons_open state, entriesOf_cons_open state, Registry.reapIn,
              if_neg member]
            exact congrArg (account.entry :: ·) (inductionHypothesis others)
        | false =>
            rw [entriesOf_cons_settled state, entriesOf_cons_settled state]
            exact inductionHypothesis others

/-! ## The registry -/

namespace Registry.Lists

variable {registry : Registry} {accounts : List Account}

theorem markReaped (lists : registry.Lists accounts)
    (distinct : (processesOf accounts).Nodup) (pid : Pid) (status : Int) :
    (registry.markReaped pid status).2.Lists (accounts.map (Account.reaped pid status)) := by
  unfold Registry.Lists Registry.markReaped
  rw [lists]
  exact reapIn_entriesOf distinct pid status

theorem insert (lists : registry.Lists accounts) {account : Account}
    (isOpen : account.isOpen) {changed : Registry}
    (inserted : registry.insert account.entry = .ok changed) :
    changed.Lists (accounts ++ [account]) := by
  obtain ⟨-, rfl⟩ := Registry.insert_eq_ok inserted
  unfold Registry.Lists entriesOf
  rw [List.filter_append, List.map_append, List.filter_cons_of_pos isOpen]
  exact congrArg (· ++ [account.entry]) lists

end Registry.Lists

/-- The background jobs that a registry lists are in custody, and there are no loose processes. -/
structure Registry.InCustody (registry : Registry) (table : List Attempt)
    (accounts : List Account) : Prop where
  custody : Custody table accounts []
  lists : registry.Lists accounts

/-- The background jobs that a registry lists are in custody, those of before among them. -/
def Registry.CarriesOn (registry : Registry) (table : List Attempt)
    (accounts : List Account) : Prop :=
  ∃ later, Keeps accounts later ∧ registry.InCustody table later

namespace Registry

variable {registry : Registry} {table : List Attempt} {accounts : List Account}

theorem InCustody.carriesOn (held : registry.InCustody table accounts) :
    registry.CarriesOn table accounts :=
  ⟨accounts, Keeps.refl accounts, held⟩

theorem CarriesOn.trans {earlier : List Account} (kept : Keeps earlier accounts)
    (carried : registry.CarriesOn table accounts) : registry.CarriesOn table earlier := by
  obtain ⟨later, keeps, held⟩ := carried
  exact ⟨later, kept.trans keeps, held⟩

end Registry

/-- A job whose processes are loose is in custody once its entry is inserted. -/
theorem Registry.Lists.admit {registry jobs : Registry} {table : List Attempt}
    {accounts : List Account} (lists : registry.Lists accounts) {account : Account}
    (custody : Custody table accounts account.entry.processes)
    (isOpen : account.isOpen) (follows : account.entry.Follows (account.attempts table))
    (inserted : registry.insert account.entry = .ok jobs) :
    jobs.InCustody table (accounts ++ [account]) := by
  have loose : Custody table accounts (account.entry.processes ++ []) := by
    rw [List.append_nil]
    exact custody
  exact ⟨loose.register follows, lists.insert isOpen inserted⟩

/-- An entry that is listed is that of a job with a process left. -/
theorem entriesOf_eq_append_cons {accounts : List Account} {entry : Entry}
    {earlier later : List Entry} (split : entriesOf accounts = earlier ++ entry :: later) :
    ∃ before account after, accounts = before ++ account :: after ∧ account.isOpen ∧
      account.entry = entry ∧ earlier ++ later = entriesOf (before ++ after) := by
  unfold entriesOf at split
  obtain ⟨front, back, opened, rfl, backed⟩ := List.map_eq_append_iff.1 split
  obtain ⟨account, rest, rfl, same, rfl⟩ := List.map_eq_cons_iff.1 backed
  obtain ⟨before, others, rfl, rfl, left⟩ := List.filter_eq_append_iff.1 opened
  obtain ⟨skipped, after, rfl, settled, isOpen, rfl⟩ := List.filter_eq_cons_iff.1 left
  refine ⟨before ++ skipped, account, after, by simp, isOpen, same, ?_⟩
  have none : skipped.filter Account.isOpen = [] := List.filter_eq_nil_iff.2 settled
  unfold entriesOf
  rw [List.filter_append, List.filter_append, none, List.append_nil, List.map_append]

end JobControl
