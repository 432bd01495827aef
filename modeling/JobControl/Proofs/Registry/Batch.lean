import JobControl.Proofs.Registry
import Mathlib.Data.List.Forall2
import Mathlib.Data.List.Perm.Basic
/-!
# Reaping a batch

The notices of a batch are noted one after the other, and each may change or take out an entry that
a later one is about.  What comes of all of them can be said of the batch as a whole: each entry
loses the processes that the batch tells the end of and gets the status that is told of its last
step, and it is completed when no process is left.  So the order of the notices makes a difference
only to the names and the order of the completed entries, and it makes none in how many calls
they come.
-/

namespace JobControl

/-! ## What notices tell -/

def ChildNotice.isFailure : ChildNotice → Bool
  | .failed _ => true
  | _ => false

/-- Processes of which the end has been told, in the order in which it was, each with its status. -/
abbrev Batch : Type :=
  List (Pid × Int)

/-- The processes that notices tell the end of, up to the first notice of a failure. -/
def reapedBy (notices : List ChildNotice) : Batch :=
  (notices.takeWhile fun notice => !notice.isFailure).filterMap ChildNotice.reaped?

namespace Batch

/-- The status of a process, as it is told first. -/
def status? (batch : Batch) (pid : Pid) : Option Int :=
  batch.lookup pid

/-- Where the end of a process is told first. -/
def place (batch : Batch) (pid : Pid) : Nat :=
  (batch.map Prod.fst).idxOf pid

variable {batch other : Batch} {pid process : Pid} {status : Int}

@[simp]
theorem status?_nil (pid : Pid) : status? [] pid = none :=
  rfl

@[simp]
theorem status?_cons_self (pid : Pid) (status : Int) (batch : Batch) :
    status? ((pid, status) :: batch) pid = some status := by
  simp [status?]

private theorem status?_cons_of_ne (different : process ≠ pid) :
    status? ((pid, status) :: batch) process = status? batch process := by
  have unequal : (process == pid) = false := beq_eq_false_iff_ne.2 different
  simp [status?, List.lookup_cons, unequal]

@[simp]
theorem place_cons_self (pid : Pid) (status : Int) (batch : Batch) :
    place ((pid, status) :: batch) pid = 0 := by
  simp [place]

private theorem place_cons_of_ne (different : process ≠ pid) :
    place ((pid, status) :: batch) process = place batch process + 1 := by
  simp [place, List.idxOf_cons_ne _ different.symm]

/-- Of a process that is told of once, the status does not depend on the order. -/
theorem status?_eq_some_iff (once : (batch.map Prod.fst).Nodup) :
    batch.status? pid = some status ↔ (pid, status) ∈ batch := by
  induction batch with
  | nil => simp
  | cons first rest inductionHypothesis =>
      obtain ⟨head, told⟩ := first
      rw [List.map_cons, List.nodup_cons] at once
      by_cases same : pid = head
      · subst same
        have absent : (pid, status) ∉ rest := fun member =>
          once.1 (List.mem_map.2 ⟨(pid, status), member, rfl⟩)
        simp [absent, eq_comm]
      · rw [status?_cons_of_ne same, inductionHypothesis once.2]
        simp [same]

private theorem status?_eq_of_perm (once : (batch.map Prod.fst).Nodup) (same : other.Perm batch)
    (pid : Pid) : other.status? pid = batch.status? pid := by
  have onceToo : (other.map Prod.fst).Nodup := (same.map Prod.fst).nodup_iff.2 once
  apply Option.ext
  intro status
  rw [status?_eq_some_iff onceToo, status?_eq_some_iff once, same.mem_iff]

end Batch

/-! ## What a batch does to one entry -/

namespace Entry

variable {entry after : Entry} {batch : Batch} {pid : Pid} {status : Int}

/-- Whether the end of all processes of an entry is told. -/
def isDoneBy (batch : Batch) (entry : Entry) : Bool :=
  entry.processes.all fun pid => (batch.status? pid).isSome

/-- The status of the last step after a batch: the one told, if the step had not been reaped. -/
def statusAfter (batch : Batch) (entry : Entry) : Option Int :=
  match entry.lastStep with
  | none => entry.lastStatus
  | some last =>
      if last ∈ entry.processes then (batch.status? last).or entry.lastStatus
      else entry.lastStatus

/-- What becomes of an entry by a batch.  As long as a process is left, the entry is known by the
last that is left; otherwise by the process whose end is told last. -/
structure IsReapedBy (batch : Batch) (entry after : Entry) : Prop where
  job : after.job = entry.job
  started : after.started = entry.started
  lastStep : after.lastStep = entry.lastStep
  processes : after.processes =
    entry.processes.filter fun pid => (batch.status? pid).isNone
  lastStatus : after.lastStatus = entry.statusAfter batch
  named : after.processes ≠ [] → after.IsNamed
  reapedLast : after.processes = [] →
    after.pid ∈ entry.processes ∧
      ∀ pid ∈ entry.processes, batch.place pid ≤ batch.place after.pid

private theorem isDoneBy_iff :
    entry.isDoneBy batch = true ↔
      (entry.processes.filter fun pid => (batch.status? pid).isNone) = [] := by
  simp [isDoneBy, List.filter_eq_nil_iff, Option.isSome_iff_ne_none]

/-- What is told of the same processes is the same for the entry. -/
theorem isDoneBy_congr {other : Batch} {entry second : Entry}
    (same : (entry.processes.filter fun pid => (batch.status? pid).isNone) =
      second.processes.filter fun pid => (other.status? pid).isNone) :
    entry.isDoneBy batch = second.isDoneBy other := by
  rw [Bool.eq_iff_iff, isDoneBy_iff, isDoneBy_iff, same]

/-! ### One process more -/

private theorem left_cons (pid : Pid) (status : Int) (batch : Batch) (processes : List Pid) :
    (processes.filter fun process =>
        (Batch.status? ((pid, status) :: batch) process).isNone) =
      (processes.filter fun process => process ≠ pid).filter fun process =>
        (batch.status? process).isNone := by
  rw [List.filter_filter]
  apply List.filter_congr
  intro process _
  by_cases same : process = pid
  · simp [same]
  · simp [Batch.status?_cons_of_ne same, same]

private theorem filter_ne_of_not_mem (strange : pid ∉ entry.processes) :
    (entry.processes.filter fun process => process ≠ pid) = entry.processes := by
  rw [List.filter_eq_self]
  intro process member
  have different : process ≠ pid := by
    rintro rfl
    exact strange member
  simpa using different

private theorem statusAfter_cons :
    entry.statusAfter ((pid, status) :: batch) =
      if pid ∈ entry.processes then (entry.afterReaping pid status).statusAfter batch
      else entry.statusAfter batch := by
  unfold statusAfter afterReaping
  cases entry.lastStep with
  | none => simp
  | some last =>
      by_cases same : last = pid
      · by_cases owned : pid ∈ entry.processes
        · simp [owned, same]
        · simp [owned, same]
      · by_cases owned : pid ∈ entry.processes
        · simp [owned, same, Batch.status?_cons_of_ne same]
        · simp [owned, Batch.status?_cons_of_ne same]

/-- An entry that loses its last process keeps its name. -/
theorem pid_afterReaping_of_only (only : entry.processes = [pid]) (named : entry.IsNamed) :
    (entry.afterReaping pid status).pid = pid := by
  unfold IsNamed at named
  simpa [afterReaping, only] using named.symm

namespace IsReapedBy

private theorem refl_of_named (named : entry.IsNamed) : IsReapedBy [] entry entry where
  job := rfl
  started := rfl
  lastStep := rfl
  processes := by simp
  lastStatus := by cases known : entry.lastStep <;> simp [statusAfter, known]
  named := fun _ => named
  reapedLast := by
    intro empty
    exact absurd named.mem (by simp [empty])

/-- The end of a stranger makes no difference. -/
theorem cons_of_not_mem (strange : pid ∉ entry.processes) (reaped : IsReapedBy batch entry after) :
    IsReapedBy ((pid, status) :: batch) entry after where
  job := reaped.job
  started := reaped.started
  lastStep := reaped.lastStep
  processes := by rw [reaped.processes, left_cons, filter_ne_of_not_mem strange]
  lastStatus := by rw [reaped.lastStatus, statusAfter_cons, if_neg strange]
  named := reaped.named
  reapedLast := by
    intro empty
    obtain ⟨member, latest⟩ := reaped.reapedLast empty
    have apart : ∀ process ∈ entry.processes, process ≠ pid := by
      rintro process isListed rfl
      exact strange isListed
    refine ⟨member, fun process isListed => ?_⟩
    rw [Batch.place_cons_of_ne (apart process isListed), Batch.place_cons_of_ne (apart _ member)]
    exact Nat.succ_le_succ (latest process isListed)

/-- An entry that loses a process goes on as the one without it. -/
theorem cons_of_mem (owned : pid ∈ entry.processes)
    (reaped : IsReapedBy batch (entry.afterReaping pid status) after) :
    IsReapedBy ((pid, status) :: batch) entry after where
  job := reaped.job
  started := reaped.started
  lastStep := reaped.lastStep
  processes := by rw [reaped.processes, left_cons, processes_afterReaping]
  lastStatus := by rw [reaped.lastStatus, statusAfter_cons, if_pos owned]
  named := reaped.named
  reapedLast := by
    intro empty
    obtain ⟨member, latest⟩ := reaped.reapedLast empty
    rw [processes_afterReaping, List.mem_filter] at member
    have different : after.pid ≠ pid := by simpa using member.2
    refine ⟨member.1, fun process isListed => ?_⟩
    by_cases same : process = pid
    · simp [same]
    · rw [Batch.place_cons_of_ne same, Batch.place_cons_of_ne different]
      apply Nat.succ_le_succ
      apply latest
      simp [isListed, same]

/-- An entry that loses its last process is done, whatever else is told. -/
theorem cons_of_only (batch : Batch) (only : entry.processes = [pid]) (named : entry.IsNamed) :
    IsReapedBy ((pid, status) :: batch) entry (entry.afterReaping pid status) where
  job := rfl
  started := rfl
  lastStep := rfl
  processes := by simp [only]
  lastStatus := by
    rw [statusAfter_cons, if_pos (by simp [only])]
    cases known : entry.lastStep <;> simp [statusAfter, afterReaping, known, only]
  named := by simp [only]
  reapedLast := by
    intro _
    simp [pid_afterReaping_of_only only named, only]

end IsReapedBy

/-! ### All of them -/

/-- The entry after the end of a process was told, which may be none of its own. -/
def afterNotice (pid : Pid) (status : Int) (entry : Entry) : Entry :=
  if pid ∈ entry.processes then entry.afterReaping pid status else entry

/-- The entry after all that a batch tells. -/
def afterBatch : Batch → Entry → Entry
  | [], entry => entry
  | (pid, status) :: rest, entry => afterBatch rest (afterNotice pid status entry)

/-- Whether no process of the entry is left. -/
def isOver (entry : Entry) : Bool :=
  entry.processes.isEmpty

private theorem isOver_iff : entry.isOver = true ↔ entry.processes = [] :=
  List.isEmpty_iff

private theorem not_mem_afterNotice (pid : Pid) (status : Int) (entry : Entry) :
    pid ∉ (afterNotice pid status entry).processes := by
  unfold afterNotice
  by_cases owned : pid ∈ entry.processes
  · simp [owned]
  · simp [owned]

private theorem afterNotice_of_not_mem (strange : pid ∉ entry.processes) :
    afterNotice pid status entry = entry :=
  if_neg strange

private theorem afterNotice_of_mem (owned : pid ∈ entry.processes) :
    afterNotice pid status entry = entry.afterReaping pid status :=
  if_pos owned

/-- The process that ends an entry is the one that it is then known by. -/
theorem pid_afterNotice_of_isOver (named : entry.IsNamed) (distinct : entry.processes.Nodup)
    (ended : (afterNotice pid status entry).isOver = true) :
    (afterNotice pid status entry).pid = pid := by
  have finished := isOver_iff.1 ended
  by_cases owned : pid ∈ entry.processes
  · rw [afterNotice_of_mem owned] at finished ⊢
    have only := (processes_afterReaping_eq_nil_iff status owned distinct).1 finished
    exact pid_afterReaping_of_only only named
  · rw [afterNotice_of_not_mem owned] at finished
    exact absurd named.mem (by simp [finished])

/-- An entry that is over has nothing to lose. -/
theorem afterBatch_of_isOver (batch : Batch) (ended : entry.isOver = true) :
    afterBatch batch entry = entry := by
  induction batch with
  | nil => rfl
  | cons first rest inductionHypothesis =>
      have strange : first.1 ∉ entry.processes := by simp [isOver_iff.1 ended]
      rw [afterBatch, afterNotice_of_not_mem strange]
      exact inductionHypothesis

private theorem isReapedBy_afterBatch (batch : Batch) (named : entry.IsNamed)
    (distinct : entry.processes.Nodup) :
    IsReapedBy batch entry (afterBatch batch entry) := by
  induction batch generalizing entry with
  | nil => exact .refl_of_named named
  | cons first rest inductionHypothesis =>
      obtain ⟨pid, status⟩ := first
      rw [afterBatch]
      by_cases owned : pid ∈ entry.processes
      · rw [afterNotice_of_mem owned]
        by_cases finished : (entry.afterReaping pid status).processes = []
        · rw [afterBatch_of_isOver rest (isOver_iff.2 finished)]
          exact .cons_of_only rest
            ((processes_afterReaping_eq_nil_iff status owned distinct).1 finished) named
        · exact .cons_of_mem owned
            (inductionHypothesis (isNamed_afterReaping status finished) (distinct.filter _))
      · rw [afterNotice_of_not_mem owned]
        exact .cons_of_not_mem owned (inductionHypothesis named distinct)

private theorem IsReapedBy.isOver_eq (reaped : IsReapedBy batch entry after) :
    after.isOver = entry.isDoneBy batch := by
  rw [Bool.eq_iff_iff, isOver_iff, isDoneBy_iff, reaped.processes]

/-- The entry but for its name. -/
def nameless (entry : Entry) : Entry :=
  { entry with pid := ⟨0⟩ }

/-- What becomes of an entry is settled by the statuses told, but for the name of an entry that is
over. -/
theorem IsReapedBy.nameless_eq {other : Batch} {second : Entry}
    (reaped : IsReapedBy batch entry after) (reapedToo : IsReapedBy other entry second)
    (same : ∀ pid, other.status? pid = batch.status? pid) :
    second.nameless = after.nameless := by
  have processes : second.processes = after.processes := by
    rw [reaped.processes, reapedToo.processes]
    simp only [same]
  have lastStatus : second.lastStatus = after.lastStatus := by
    rw [reaped.lastStatus, reapedToo.lastStatus]
    unfold statusAfter
    simp only [same]
  unfold nameless
  rw [reapedToo.job, reapedToo.started, reapedToo.lastStep, processes, lastStatus, reaped.job,
    reaped.started, reaped.lastStep]

theorem IsReapedBy.eq {other : Batch} {second : Entry}
    (reaped : IsReapedBy batch entry after) (reapedToo : IsReapedBy other entry second)
    (same : ∀ pid, other.status? pid = batch.status? pid) (left : after.processes ≠ []) :
    second = after := by
  have equal := reaped.nameless_eq reapedToo same
  have processes : second.nameless.processes = after.nameless.processes :=
    congrArg Entry.processes equal
  change second.processes = after.processes at processes
  have named := reaped.named left
  have namedToo := reapedToo.named (processes ▸ left)
  have pid : second.pid = after.pid := by
    unfold IsNamed at named namedToo
    rw [processes, named] at namedToo
    exact (Option.some.inj namedToo).symm
  cases second
  cases after
  simp_all [nameless]

end Entry

/-! ## What a batch does to the registry -/

namespace Registry

open Entry

variable {entries left : List Entry} {completed : Option Entry} {batch : Batch} {pid : Pid}
  {status : Int}

private theorem map_afterNotice_of_not_mem (strange : ∀ entry ∈ entries, pid ∉ entry.processes) :
    entries.map (afterNotice pid status) = entries := by
  rw [List.map_congr_left fun entry listed => afterNotice_of_not_mem (strange entry listed),
    List.map_id']

private theorem IsKeyed.isOver_eq_false (keyed : IsKeyed entries) :
    ∀ entry ∈ entries, entry.isOver = false := by
  intro entry listed
  have nonempty := List.ne_nil_of_mem (keyed.named entry listed).mem
  simpa [isOver] using nonempty

/-- No other entry has a process of a listed one. -/
theorem IsKeyed.not_mem_of_split {before after : List Entry} {entry : Entry}
    (keyed : IsKeyed (before ++ entry :: after)) (owned : pid ∈ entry.processes) :
    (∀ other ∈ before, pid ∉ other.processes) ∧ ∀ other ∈ after, pid ∉ other.processes := by
  have apart := keyed.disjoint
  rw [List.pairwise_append, List.pairwise_cons] at apart
  obtain ⟨-, ⟨behind, -⟩, across⟩ := apart
  constructor
  · intro other listed isIn
    exact across other listed entry List.mem_cons_self isIn owned
  · intro other listed isIn
    exact behind other listed owned isIn

private theorem filter_isOver_of_open (goOn : ∀ entry ∈ entries, entry.isOver = false) :
    entries.filter isOver = [] ∧ (entries.filter fun entry => !entry.isOver) = entries := by
  constructor
  · simpa [List.filter_eq_nil_iff] using goOn
  · simpa [List.filter_eq_self] using goOn

/-- Noting one process, said of all entries at once. -/
theorem Reaps.eq_filter (reaped : Reaps pid status entries completed left)
    (keyed : IsKeyed entries) :
    completed.toList = (entries.map (afterNotice pid status)).filter isOver ∧
      left = (entries.map (afterNotice pid status)).filter fun entry => !entry.isOver := by
  have goOn := keyed.isOver_eq_false
  cases reaped with
  | stranger strange =>
      obtain ⟨none, all⟩ := filter_isOver_of_open goOn
      rw [map_afterNotice_of_not_mem strange, none, all]
      exact ⟨rfl, rfl⟩
  | @continues before after entry owned remaining =>
      obtain ⟨strangeBefore, strangeAfter⟩ := keyed.not_mem_of_split owned
      obtain ⟨noneBefore, allBefore⟩ := filter_isOver_of_open fun other listed =>
        goOn other (List.mem_append_left _ listed)
      obtain ⟨noneAfter, allAfter⟩ := filter_isOver_of_open fun other listed =>
        goOn other (List.mem_append_right _ (List.mem_cons_of_mem _ listed))
      have goesOn : (entry.afterReaping pid status).isOver = false := by
        simpa [isOver] using remaining
      simp [map_afterNotice_of_not_mem strangeBefore, map_afterNotice_of_not_mem strangeAfter,
        afterNotice_of_mem owned, goesOn, noneBefore, allBefore, noneAfter, allAfter]
  | @completes before after entry owned finished =>
      obtain ⟨strangeBefore, strangeAfter⟩ := keyed.not_mem_of_split owned
      obtain ⟨noneBefore, allBefore⟩ := filter_isOver_of_open fun other listed =>
        goOn other (List.mem_append_left _ listed)
      obtain ⟨noneAfter, allAfter⟩ := filter_isOver_of_open fun other listed =>
        goOn other (List.mem_append_right _ (List.mem_cons_of_mem _ listed))
      have ended : (entry.afterReaping pid status).isOver = true := isOver_iff.2 finished
      simp [map_afterNotice_of_not_mem strangeBefore, map_afterNotice_of_not_mem strangeAfter,
        afterNotice_of_mem owned, ended, noneBefore, allBefore, noneAfter, allAfter]

/-- Notes all that a batch tells, one process after the other. -/
def markAll (registry : Registry) : Batch → List Entry × Registry
  | [] => ([], registry)
  | (pid, status) :: rest =>
      let (completed, registry) := registry.markReaped pid status
      let (later, registry) := registry.markAll rest
      (completed.toList ++ later, registry)

variable {registry : Registry}

private theorem markAll_cons (registry : Registry) (pid : Pid) (status : Int) (rest : Batch) :
    registry.markAll ((pid, status) :: rest) =
      ((registry.markReaped pid status).1.toList ++
          ((registry.markReaped pid status).2.markAll rest).1,
        ((registry.markReaped pid status).2.markAll rest).2) :=
  rfl

private theorem markAll_append (registry : Registry) (batch later : Batch) :
    registry.markAll (batch ++ later) =
      ((registry.markAll batch).1 ++ ((registry.markAll batch).2.markAll later).1,
        ((registry.markAll batch).2.markAll later).2) := by
  induction batch generalizing registry with
  | nil => rfl
  | cons first rest inductionHypothesis =>
      rw [List.cons_append, markAll_cons, inductionHypothesis, markAll_cons]
      simp only [List.append_assoc]

@[simp]
theorem capacity_markAll (registry : Registry) (batch : Batch) :
    (registry.markAll batch).2.capacity = registry.capacity := by
  induction batch generalizing registry with
  | nil => rfl
  | cons first rest inductionHypothesis =>
      rw [markAll_cons]
      exact inductionHypothesis _

/-- What is over before a batch is over after it, as it was. -/
theorem filter_open_afterBatch (batch : Batch) (entries : List Entry) :
    ((entries.filter fun entry => !entry.isOver).map (afterBatch batch)).filter
        (fun entry => !entry.isOver) =
      (entries.map (afterBatch batch)).filter fun entry => !entry.isOver := by
  induction entries with
  | nil => rfl
  | cons entry rest inductionHypothesis =>
      cases ended : entry.isOver with
      | true => simp [ended, afterBatch_of_isOver batch ended, inductionHypothesis]
      | false => simp [ended, List.filter_cons, inductionHypothesis]

private theorem filter_isOver_afterBatch_perm (batch : Batch) (entries : List Entry) :
    (entries.filter isOver ++
        ((entries.filter fun entry => !entry.isOver).map (afterBatch batch)).filter isOver).Perm
      ((entries.map (afterBatch batch)).filter isOver) := by
  induction entries with
  | nil => exact .nil
  | cons entry rest inductionHypothesis =>
      cases ended : entry.isOver with
      | true => simpa [ended, afterBatch_of_isOver batch ended] using inductionHypothesis
      | false =>
          cases later : (afterBatch batch entry).isOver with
          | true => simpa [ended, later] using List.perm_middle.trans (inductionHypothesis.cons _)
          | false => simpa [ended, later] using inductionHypothesis

private theorem map_afterBatch_cons (entries : List Entry) (pid : Pid) (status : Int)
    (rest : Batch) :
    entries.map (afterBatch ((pid, status) :: rest)) =
      (entries.map (afterNotice pid status)).map (afterBatch rest) := by
  rw [List.map_map]
  rfl

/-- The entries that a batch leaves are those that are not over by it, in their order. -/
theorem entries_markAll (keyed : IsKeyed registry.entries) (batch : Batch) :
    (registry.markAll batch).2.entries =
      (registry.entries.map (afterBatch batch)).filter fun entry => !entry.isOver := by
  induction batch generalizing registry with
  | nil =>
      have unchanged : registry.entries.map (afterBatch []) = registry.entries := List.map_id _
      rw [unchanged, (filter_isOver_of_open keyed.isOver_eq_false).2]
      rfl
  | cons first rest inductionHypothesis =>
      obtain ⟨pid, status⟩ := first
      have reaped := markReaped_reaps registry pid status
      rw [markAll_cons, map_afterBatch_cons, ← filter_open_afterBatch,
        ← (reaped.eq_filter keyed).2]
      exact inductionHypothesis (keyed.reaps reaped)

/-- The completed entries are those that are over by the batch. -/
theorem completed_markAll_perm (keyed : IsKeyed registry.entries) (batch : Batch) :
    (registry.markAll batch).1.Perm ((registry.entries.map (afterBatch batch)).filter isOver) := by
  induction batch generalizing registry with
  | nil =>
      have unchanged : registry.entries.map (afterBatch []) = registry.entries := List.map_id _
      rw [unchanged, (filter_isOver_of_open keyed.isOver_eq_false).1]
      exact .nil
  | cons first rest inductionHypothesis =>
      obtain ⟨pid, status⟩ := first
      have reaped := markReaped_reaps registry pid status
      obtain ⟨completed, left⟩ := reaped.eq_filter keyed
      have later := inductionHypothesis (keyed.reaps reaped)
      rw [left] at later
      rw [markAll_cons, map_afterBatch_cons, completed]
      exact (later.append_left _).trans (filter_isOver_afterBatch_perm rest _)

/-- A completed entry is known by a process that it had. -/
theorem pid_mem_of_completed (keyed : IsKeyed registry.entries) {batch : Batch} {entry : Entry}
    (completed : entry ∈ (registry.markAll batch).1) :
    ∃ earlier ∈ registry.entries, entry.pid ∈ earlier.processes := by
  rw [(completed_markAll_perm keyed batch).mem_iff, List.mem_filter, List.mem_map] at completed
  obtain ⟨⟨earlier, listed, rfl⟩, ended⟩ := completed
  have reaped := isReapedBy_afterBatch batch (keyed.named earlier listed)
    (keyed.nodup_of_mem listed)
  exact ⟨earlier, listed, (reaped.reapedLast (isOver_iff.1 ended)).1⟩

/-- The entries complete in the order in which the ends of their last processes are told. -/
theorem completed_markAll_pairwise (keyed : IsKeyed registry.entries) (batch : Batch) :
    (registry.markAll batch).1.Pairwise fun one other =>
      batch.place one.pid < batch.place other.pid := by
  induction batch generalizing registry with
  | nil => exact .nil
  | cons first rest inductionHypothesis =>
      obtain ⟨pid, status⟩ := first
      have reaped := markReaped_reaps registry pid status
      obtain ⟨completed, left⟩ := reaped.eq_filter keyed
      have keyedAfter := keyed.reaps reaped
      have apart : ∀ entry ∈ ((registry.markReaped pid status).2.markAll rest).1,
          entry.pid ≠ pid := by
        intro entry isCompleted same
        obtain ⟨earlier, listed, isIn⟩ := pid_mem_of_completed keyedAfter isCompleted
        rw [left, List.mem_filter, List.mem_map] at listed
        obtain ⟨⟨first, -, rfl⟩, -⟩ := listed
        rw [same] at isIn
        exact not_mem_afterNotice pid status first isIn
      rw [markAll_cons, List.pairwise_append]
      refine ⟨?_, ?_, ?_⟩
      · cases (registry.markReaped pid status).1 with
        | none => exact .nil
        | some entry => exact List.pairwise_singleton _ _
      · apply (inductionHypothesis keyedAfter).imp_of_mem
        intro one other oneCompleted otherCompleted before
        rw [Batch.place_cons_of_ne (apart one oneCompleted),
          Batch.place_cons_of_ne (apart other otherCompleted)]
        exact Nat.succ_lt_succ before
      · intro one now other later
        rw [completed, List.mem_filter, List.mem_map] at now
        obtain ⟨⟨entry, listed, rfl⟩, ended⟩ := now
        rw [pid_afterNotice_of_isOver (keyed.named entry listed) (keyed.nodup_of_mem listed) ended,
          Batch.place_cons_self, Batch.place_cons_of_ne (apart other later)]
        exact Nat.succ_pos _

/-! ### Which notices count -/

private theorem Reaps.processes_sublist (reaped : Reaps pid status entries completed left) :
    (left.flatMap Entry.processes).Sublist (entries.flatMap Entry.processes) := by
  cases reaped with
  | stranger strange => exact List.Sublist.refl _
  | @continues before after entry owned remaining =>
      have fewer : (entry.afterReaping pid status).processes.Sublist entry.processes :=
        List.filter_sublist
      simp only [List.flatMap_append, List.flatMap_cons]
      exact (fewer.append_right _).append_left _
  | @completes before after entry owned finished =>
      exact ((List.sublist_cons_self entry after).append_left before).flatMap Entry.processes

private theorem reapIn_of_stranger (strange : pid ∉ entries.flatMap Entry.processes) :
    reapIn pid status entries = (none, entries) := by
  induction entries with
  | nil => rfl
  | cons entry rest inductionHypothesis =>
      rw [List.flatMap_cons, List.mem_append, not_or] at strange
      rw [reapIn, if_neg strange.1, inductionHypothesis strange.2]

private theorem markReaped_of_stranger (strange : pid ∉ registry.entries.flatMap Entry.processes) :
    registry.markReaped pid status = (none, registry) := by
  rw [markReaped, reapIn_of_stranger strange]

/-- Only what is told of listed processes makes a difference. -/
theorem markAll_filter (registry : Registry) (batch : Batch) (counts : Pid → Bool)
    (listed : ∀ pid ∈ registry.entries.flatMap Entry.processes, counts pid = true) :
    registry.markAll (batch.filter fun told => counts told.1) = registry.markAll batch := by
  induction batch generalizing registry with
  | nil => rfl
  | cons first rest inductionHypothesis =>
      obtain ⟨pid, status⟩ := first
      have reaped := markReaped_reaps registry pid status
      have later := inductionHypothesis (registry.markReaped pid status).2 fun process isLeft =>
        listed process (reaped.processes_sublist.subset isLeft)
      by_cases counting : counts pid = true
      · rw [List.filter_cons, if_pos counting, markAll_cons, markAll_cons, later]
      · have strange : pid ∉ registry.entries.flatMap Entry.processes := fun isListed =>
          counting (listed pid isListed)
        rw [List.filter_cons, if_neg counting, markAll_cons, markReaped_of_stranger strange]
        rw [markReaped_of_stranger strange] at later
        exact later

/-- Whether a notice tells the end of a process that an entry of the registry has. -/
def concerns (registry : Registry) (notice : ChildNotice) : Bool :=
  match notice.reaped? with
  | none => false
  | some (pid, _) => pid ∈ registry.entries.flatMap Entry.processes

private theorem collect_ended (registry : Registry) (pid : Pid) (ending : Ending)
    (rest : List ChildNotice) :
    collect registry (.ended pid ending :: rest) =
      ((registry.markReaped pid ending.status).1.toList ++
          (collect (registry.markReaped pid ending.status).2 rest).1,
        (collect (registry.markReaped pid ending.status).2 rest).2) :=
  rfl

theorem collect_eq_markAll (registry : Registry) (notices : List ChildNotice) :
    collect registry notices = registry.markAll (reapedBy notices) := by
  induction notices generalizing registry with
  | nil => rfl
  | cons notice rest inductionHypothesis =>
      cases notice with
      | failed reason => rfl
      | changed pid => exact inductionHypothesis registry
      | ended pid ending =>
          have told :
              reapedBy (.ended pid ending :: rest) = (pid, ending.status) :: reapedBy rest :=
            rfl
          rw [told, markAll_cons, collect_ended, inductionHypothesis]

private theorem reapedBy_filter_concerns (registry : Registry) (notices : List ChildNotice) :
    reapedBy ((notices.takeWhile fun notice => !notice.isFailure).filter registry.concerns) =
      (reapedBy notices).filter fun told =>
        told.1 ∈ registry.entries.flatMap Entry.processes := by
  induction notices with
  | nil => rfl
  | cons notice rest inductionHypothesis =>
      cases notice with
      | failed reason => rfl
      | changed pid => exact inductionHypothesis
      | ended pid ending =>
          have told :
              reapedBy (.ended pid ending :: rest) = (pid, ending.status) :: reapedBy rest :=
            rfl
          have before : ((ChildNotice.ended pid ending :: rest).takeWhile
                fun notice => !notice.isFailure) =
              .ended pid ending :: rest.takeWhile fun notice => !notice.isFailure := rfl
          have concerning : registry.concerns (.ended pid ending) =
              decide (pid ∈ registry.entries.flatMap Entry.processes) := rfl
          rw [told, before, List.filter_cons, List.filter_cons, concerning]
          by_cases listed : pid ∈ registry.entries.flatMap Entry.processes
          · rw [if_pos (decide_eq_true listed), if_pos (decide_eq_true listed),
              ← inductionHypothesis]
            rfl
          · rw [if_neg (by simpa using listed), if_neg (by simpa using listed),
              inductionHypothesis]

/-- Of the notices only those make a difference that come before the first failure and tell the
end of a listed process. -/
theorem collect_filter_concerns (registry : Registry) (notices : List ChildNotice) :
    collect registry
        ((notices.takeWhile fun notice => !notice.isFailure).filter registry.concerns) =
      collect registry notices := by
  rw [collect_eq_markAll, collect_eq_markAll, reapedBy_filter_concerns]
  exact markAll_filter registry (reapedBy notices) _ fun pid listed => decide_eq_true listed

/-! ### In how many calls -/

/-- Notes what several calls find, one call after the other. -/
def collectAll (registry : Registry) : List (List ChildNotice) → List Entry × Registry
  | [] => ([], registry)
  | notices :: rest =>
      let (completed, registry) := collect registry notices
      let (later, registry) := registry.collectAll rest
      (completed ++ later, registry)

private theorem collectAll_eq_markAll (registry : Registry) (calls : List (List ChildNotice)) :
    registry.collectAll calls = registry.markAll (calls.flatMap reapedBy) := by
  induction calls generalizing registry with
  | nil => rfl
  | cons notices rest inductionHypothesis =>
      rw [List.flatMap_cons, markAll_append, ← inductionHypothesis, ← collect_eq_markAll]
      rfl

/-- What the processes of a registry come to is settled by the statuses told, in whatever order. -/
theorem markAll_eq_of_status? (keyed : IsKeyed registry.entries) {batch other : Batch}
    (same : ∀ pid, other.status? pid = batch.status? pid) :
    (registry.markAll other).2 = (registry.markAll batch).2 ∧
      ((registry.markAll other).1.map nameless).Perm ((registry.markAll batch).1.map nameless) := by
  have reaped : ∀ (told : Batch), ∀ entry ∈ registry.entries,
      IsReapedBy told entry (afterBatch told entry) := fun told entry listed =>
    isReapedBy_afterBatch told (keyed.named entry listed) (keyed.nodup_of_mem listed)
  have ended : ∀ entry ∈ registry.entries,
      (isOver ∘ afterBatch other) entry = (isOver ∘ afterBatch batch) entry := by
    intro entry listed
    have done : entry.isDoneBy other = entry.isDoneBy batch :=
      isDoneBy_congr (by simp only [same])
    exact ((reaped other entry listed).isOver_eq.trans done).trans
      (reaped batch entry listed).isOver_eq.symm
  constructor
  · have entries : (registry.markAll other).2.entries = (registry.markAll batch).2.entries := by
      rw [entries_markAll keyed, entries_markAll keyed, List.filter_map, List.filter_map]
      have goOn : ∀ entry ∈ registry.entries,
          ((fun entry => !entry.isOver) ∘ afterBatch other) entry =
            ((fun entry => !entry.isOver) ∘ afterBatch batch) entry :=
        fun entry listed => congrArg not (ended entry listed)
      rw [List.filter_congr goOn]
      apply List.map_congr_left
      intro entry left
      rw [List.mem_filter] at left
      have goesOn : (afterBatch batch entry).processes ≠ [] := by
        simpa [isOver] using left.2
      exact (reaped batch entry left.1).eq (reaped other entry left.1) same goesOn
    have capacity : (registry.markAll other).2.capacity = (registry.markAll batch).2.capacity := by
      rw [capacity_markAll, capacity_markAll]
    generalize (registry.markAll other).2 = one at entries capacity
    generalize (registry.markAll batch).2 = two at entries capacity
    cases one
    cases two
    simp_all
  · refine ((completed_markAll_perm keyed other).map nameless).trans
      (.trans (.of_eq ?_) ((completed_markAll_perm keyed batch).map nameless).symm)
    rw [List.filter_map, List.filter_map, List.filter_congr ended, List.map_map, List.map_map]
    apply List.map_congr_left
    intro entry isOver
    have listed := List.mem_of_mem_filter isOver
    exact (reaped batch entry listed).nameless_eq (reaped other entry listed) same

/-! ## The whole batch -/

/-- What a batch does to a registry, said of each entry by itself. -/
structure ReapsBatch (batch : Batch) (registry : Registry) (completed : List Entry)
    (changed : Registry) : Prop where
  capacity : changed.capacity = registry.capacity
  remaining : List.Forall₂ (IsReapedBy batch)
    (registry.entries.filter fun entry => !entry.isDoneBy batch) changed.entries
  ended : ∃ done, done.Perm (registry.entries.filter fun entry => entry.isDoneBy batch) ∧
    List.Forall₂ (IsReapedBy batch) done completed
  /-- In the order in which the ends of their last processes are told. -/
  ordered : completed.Pairwise fun one other => batch.place one.pid < batch.place other.pid

private theorem forall₂_afterBatch {batch : Batch}
    (reaped : ∀ entry ∈ entries, IsReapedBy batch entry (afterBatch batch entry)) :
    List.Forall₂ (IsReapedBy batch) entries (entries.map (afterBatch batch)) := by
  rw [List.forall₂_map_right_iff, List.forall₂_same]
  exact reaped

theorem markAll_reapsBatch (keyed : IsKeyed registry.entries) (batch : Batch) :
    ReapsBatch batch registry (registry.markAll batch).1 (registry.markAll batch).2 := by
  have reaped : ∀ entry ∈ registry.entries, IsReapedBy batch entry (afterBatch batch entry) :=
    fun entry listed =>
      isReapedBy_afterBatch batch (keyed.named entry listed) (keyed.nodup_of_mem listed)
  have done : ∀ entry ∈ registry.entries,
      (isOver ∘ afterBatch batch) entry = entry.isDoneBy batch :=
    fun entry listed => (reaped entry listed).isOver_eq
  have goOn : ∀ entry ∈ registry.entries,
      ((fun entry => !entry.isOver) ∘ afterBatch batch) entry = !entry.isDoneBy batch :=
    fun entry listed => congrArg not (done entry listed)
  constructor
  · exact capacity_markAll registry batch
  · rw [entries_markAll keyed, List.filter_map, List.filter_congr goOn]
    exact forall₂_afterBatch fun entry left => reaped entry (List.mem_of_mem_filter left)
  · have completed := completed_markAll_perm keyed batch
    rw [List.filter_map, List.filter_congr done] at completed
    have related := forall₂_afterBatch fun entry
        (ended : entry ∈ registry.entries.filter fun entry => entry.isDoneBy batch) =>
      reaped entry (List.mem_of_mem_filter ended)
    obtain ⟨finished, pairs, same⟩ := List.perm_comp_forall₂ completed related.flip
    exact ⟨finished, same, pairs.flip⟩
  · exact completed_markAll_pairwise keyed batch

/-- Noting notices reaps the batch of them that comes before the first failure; of these only those
about listed processes make a difference.  Where no process is told of twice, neither the order nor
the number of calls makes one, but to the names and the order of the completed entries. -/
theorem collect_reaps_batch (keyed : IsKeyed registry.entries) (notices : List ChildNotice) :
    ReapsBatch (reapedBy notices) registry (collect registry notices).1
        (collect registry notices).2 ∧
      collect registry notices =
        collect registry
          ((notices.takeWhile fun notice => !notice.isFailure).filter registry.concerns) ∧
      ∀ calls : List (List ChildNotice),
        ((reapedBy notices).map Prod.fst).Nodup →
        (calls.flatMap reapedBy).Perm (reapedBy notices) →
          (registry.collectAll calls).2 = (collect registry notices).2 ∧
            ((registry.collectAll calls).1.map nameless).Perm
              ((collect registry notices).1.map nameless) := by
  refine ⟨?_, (collect_filter_concerns registry notices).symm, ?_⟩
  · rw [collect_eq_markAll]
    exact markAll_reapsBatch keyed (reapedBy notices)
  · intro calls once rearranged
    rw [collectAll_eq_markAll, collect_eq_markAll]
    exact markAll_eq_of_status? keyed (Batch.status?_eq_of_perm once rearranged)

/-- A pipeline of which one process is left and a job that is completed, with a stranger, a stopped
process and a failure among the notices; then the same in two calls the other way round. -/
theorem collect_reaps_batch_of_pipeline_and_job :
    let job (program : String) : Job := { input := program, first := { program := program } }
    let pipeline : Entry :=
      { job := job "producer"
        pid := ⟨6⟩
        processes := [⟨5⟩, ⟨6⟩]
        lastStep := some ⟨6⟩
        started := ⟨0⟩ }
    let single : Entry :=
      { job := job "sleeper"
        pid := ⟨7⟩
        processes := [⟨7⟩]
        lastStep := some ⟨7⟩
        started := ⟨1⟩ }
    let registry : Registry := { entries := [pipeline, single] }
    let notices : List ChildNotice :=
      [.ended ⟨9⟩ (.exited 0), .changed ⟨5⟩, .ended ⟨6⟩ (.exited 3), .ended ⟨7⟩ (.killed 2),
        .failed .interrupted, .ended ⟨5⟩ (.exited 0)]
    let calls : List (List ChildNotice) :=
      [[.ended ⟨7⟩ (.killed 2), .failed .interrupted],
        [.ended ⟨6⟩ (.exited 3), .ended ⟨9⟩ (.exited 0)]]
    IsKeyed registry.entries ∧
      collect registry notices =
        ([{ single with processes := [], lastStatus := some 130 }],
          { entries := [{ pipeline with pid := ⟨5⟩, processes := [⟨5⟩], lastStatus := some 3 }] }) ∧
      ReapsBatch (reapedBy notices) registry (collect registry notices).1
        (collect registry notices).2 ∧
      (registry.collectAll calls).2 = (collect registry notices).2 := by
  intro job pipeline single registry notices calls
  have keyed : IsKeyed registry.entries := by
    constructor
    · intro entry listed
      unfold IsNamed
      revert entry
      decide
    · decide
  have reaped := collect_reaps_batch keyed notices
  exact ⟨keyed, by decide, reaped.1, (reaped.2.2 calls (by decide) (by decide)).1⟩

end Registry

end JobControl
