import JobControl.Session.Background
import Mathlib.Data.List.Flatten
import Mathlib.Data.List.Nodup
/-!
# What the registry does to its entries

One lemma for each operation says everything that it can do.  What all of them keep: an entry is
known by the last of its processes, and no process is listed twice.
-/

namespace JobControl

namespace Entry

variable {entry : Entry}

/-- An entry is known by the last of its processes that has not been reaped. -/
def IsNamed (entry : Entry) : Prop :=
  entry.processes.getLast? = some entry.pid

theorem IsNamed.mem (named : entry.IsNamed) : entry.pid ∈ entry.processes :=
  List.mem_of_getLast? named

theorem isNamed_of_ofProcesses {job : Job} {processes : List Pid} {started : Moment}
    (made : Entry.ofProcesses job processes started = .ok entry) : entry.IsNamed := by
  unfold Entry.ofProcesses at made
  cases last : processes.getLast? with
  | none =>
      rw [last] at made
      cases made
  | some pid =>
      rw [last] at made
      cases made
      exact last

@[simp]
theorem processes_afterReaping (entry : Entry) (pid : Pid) (status : Int) :
    (entry.afterReaping pid status).processes =
      entry.processes.filter fun process => process ≠ pid :=
  rfl

@[simp]
theorem job_afterReaping (entry : Entry) (pid : Pid) (status : Int) :
    (entry.afterReaping pid status).job = entry.job :=
  rfl

/-- An entry that loses a process but not its last one is known by the last that is left. -/
theorem isNamed_afterReaping {pid : Pid} (status : Int)
    (left : (entry.afterReaping pid status).processes ≠ []) :
    (entry.afterReaping pid status).IsNamed := by
  have last := List.getLast?_eq_some_getLast left
  have name : (entry.afterReaping pid status).pid =
      (entry.afterReaping pid status).processes.getLastD entry.pid := rfl
  unfold IsNamed
  rw [name, List.getLastD_eq_getLast?, last]
  rfl

/-- An entry without repeated processes loses its last one exactly if it has no other. -/
theorem processes_afterReaping_eq_nil_iff {pid : Pid} (status : Int)
    (member : pid ∈ entry.processes) (distinct : entry.processes.Nodup) :
    (entry.afterReaping pid status).processes = [] ↔ entry.processes = [pid] := by
  rw [processes_afterReaping, List.filter_eq_nil_iff]
  constructor
  · intro all
    have same : ∀ process ∈ entry.processes, process = pid := by
      intro process listed
      simpa using all process listed
    have count := List.eq_replicate_of_mem same
    have short : entry.processes.length ≤ 1 := by
      rw [count] at distinct
      exact List.nodup_replicate.1 distinct
    have long : 0 < entry.processes.length := List.length_pos_of_mem member
    have one : entry.processes.length = 1 := by omega
    rw [one] at count
    exact count
  · intro only process listed
    rw [only, List.mem_singleton] at listed
    simp [listed]

end Entry

namespace Registry

/-! ## Taking out the first entry of a kind -/

theorem takeFirst?_eq_none_iff {wanted : Entry → Bool} {entries : List Entry} :
    takeFirst? wanted entries = none ↔ ∀ entry ∈ entries, wanted entry = false := by
  induction entries with
  | nil => simp [takeFirst?]
  | cons entry rest inductionHypothesis =>
      cases fitting : wanted entry with
      | true => simp [takeFirst?, fitting]
      | false => simp [takeFirst?, fitting, inductionHypothesis]

/-- Taking out the first wanted entry leaves those before it, none of them wanted, and those
after it. -/
theorem takeFirst?_eq_some {wanted : Entry → Bool} {entries left : List Entry} {entry : Entry}
    (taken : takeFirst? wanted entries = some (entry, left)) :
    ∃ before after, entries = before ++ entry :: after ∧ left = before ++ after ∧
      wanted entry = true ∧ ∀ earlier ∈ before, wanted earlier = false := by
  induction entries generalizing left with
  | nil => cases taken
  | cons first rest inductionHypothesis =>
      rw [takeFirst?] at taken
      by_cases fitting : wanted first = true
      · rw [if_pos fitting] at taken
        cases taken
        exact ⟨[], rest, rfl, rfl, fitting, by simp⟩
      · rw [if_neg fitting, Option.map_eq_some_iff] at taken
        obtain ⟨⟨found, others⟩, later, equal⟩ := taken
        cases equal
        obtain ⟨before, after, split, remaining, isWanted, unwanted⟩ :=
          inductionHypothesis later
        have unfit : wanted first = false := by simpa using fitting
        exact ⟨first :: before, after, by rw [split]; rfl, by rw [remaining]; rfl, isWanted,
          by simpa [unfit] using unwanted⟩

/-! ## What each operation can do -/

section Operations

variable {registry changed : Registry} {entry : Entry} {pid : Pid} {failure : Failure}

/-- An entry is inserted behind the others, if there is room for it. -/
theorem insert_eq_ok (inserted : registry.insert entry = .ok changed) :
    registry.isFull = false ∧
      changed = { registry with entries := registry.entries ++ [entry] } := by
  unfold insert at inserted
  by_cases full : registry.isFull = true
  · rw [if_pos full] at inserted
    cases inserted
  · rw [if_neg full] at inserted
    cases known : registry.lookup? entry.pid with
    | some other => simp [known] at inserted
    | none =>
        rw [known] at inserted
        cases inserted
        exact ⟨by simpa using full, rfl⟩

private theorem lookup?_eq_none_iff :
    registry.lookup? pid = none ↔ ∀ entry ∈ registry.entries, entry.pid ≠ pid := by
  simp [lookup?, List.find?_eq_none]

/-- An entry of a name that no listed entry has is inserted unless the registry is full. -/
theorem insert_of_new (new : ∀ listed ∈ registry.entries, listed.pid ≠ entry.pid) :
    registry.insert entry =
      if registry.isFull then .error (.tooManyBackgroundJobs (registry.capacity.getD 0))
      else .ok { registry with entries := registry.entries ++ [entry] } := by
  unfold insert
  rw [lookup?_eq_none_iff.2 new]

theorem isFull_eq_true_iff :
    registry.isFull = true ↔
      ∃ limit, registry.capacity = some limit ∧ limit ≤ registry.entries.length := by
  unfold isFull size
  cases registry.capacity <;> simp

/-- Removing by a name takes out the first entry of that name; the others stay in order. -/
theorem remove_eq_ok (removed : registry.remove pid = .ok (entry, changed)) :
    ∃ before after, registry.entries = before ++ entry :: after ∧ entry.pid = pid ∧
      (∀ earlier ∈ before, earlier.pid ≠ pid) ∧
      changed = { registry with entries := before ++ after } := by
  unfold remove at removed
  cases taken : takeFirst? (fun entry => entry.pid = pid) registry.entries with
  | none =>
      rw [taken] at removed
      cases removed
  | some found =>
      obtain ⟨first, left⟩ := found
      rw [taken] at removed
      cases removed
      obtain ⟨before, after, split, rfl, isWanted, others⟩ := takeFirst?_eq_some taken
      exact ⟨before, after, split, of_decide_eq_true isWanted,
        fun earlier member => of_decide_eq_false (others earlier member), rfl⟩

theorem remove_eq_error (removed : registry.remove pid = .error failure) :
    (∀ entry ∈ registry.entries, entry.pid ≠ pid) ∧
      failure = .jobNotFound (toString pid.number) := by
  unfold remove at removed
  cases taken : takeFirst? (fun entry => entry.pid = pid) registry.entries with
  | some found => simp [taken] at removed
  | none =>
      rw [taken] at removed
      cases removed
      exact ⟨by simpa using takeFirst?_eq_none_iff.1 taken, rfl⟩

theorem removeOldest_eq_ok (removed : registry.removeOldest = .ok (entry, changed)) :
    ∃ after, registry.entries = entry :: after ∧
      changed = { registry with entries := after } := by
  unfold removeOldest at removed
  cases listed : registry.entries with
  | nil => simp [listed] at removed
  | cons oldest left =>
      simp only [listed, Except.ok.injEq, Prod.mk.injEq] at removed
      obtain ⟨rfl, rfl⟩ := removed
      exact ⟨left, rfl, rfl⟩

theorem removeOldest_eq_error (removed : registry.removeOldest = .error failure) :
    registry.entries = [] ∧ failure = .noBackgroundJobs := by
  unfold removeOldest at removed
  cases listed : registry.entries with
  | nil =>
      simp only [listed, Except.error.injEq] at removed
      exact ⟨rfl, removed.symm⟩
  | cons oldest left => simp [listed] at removed

/-- Taking a job to the foreground takes out one entry; the others stay in order. -/
theorem takeJob_eq_ok {wanted : Option Pid}
    (taken : Session.takeJob registry wanted = .ok (entry, changed)) :
    ∃ before after, registry.entries = before ++ entry :: after ∧
      changed = { registry with entries := before ++ after } := by
  cases wanted with
  | some pid =>
      obtain ⟨before, after, split, -, -, left⟩ := remove_eq_ok taken
      exact ⟨before, after, split, left⟩
  | none =>
      obtain ⟨after, split, left⟩ := removeOldest_eq_ok taken
      exact ⟨[], after, split, left⟩

end Operations

/-- What noting a reaped process does to the entries, and which entry it completes. -/
inductive Reaps (pid : Pid) (status : Int) :
    List Entry → Option Entry → List Entry → Prop where
  /-- No entry has the process. -/
  | stranger {entries : List Entry}
      (strange : ∀ entry ∈ entries, pid ∉ entry.processes) :
      Reaps pid status entries none entries
  /-- The entry that has it has others left. -/
  | continues (before : List Entry) {after : List Entry} {entry : Entry}
      (member : pid ∈ entry.processes)
      (left : (entry.afterReaping pid status).processes ≠ []) :
      Reaps pid status (before ++ entry :: after) none
        (before ++ entry.afterReaping pid status :: after)
  /-- It was the last one of its entry. -/
  | completes (before : List Entry) {after : List Entry} {entry : Entry}
      (member : pid ∈ entry.processes)
      (finished : (entry.afterReaping pid status).processes = []) :
      Reaps pid status (before ++ entry :: after) (some (entry.afterReaping pid status))
        (before ++ after)

private theorem reapIn_reaps (pid : Pid) (status : Int) (entries : List Entry) :
    Reaps pid status entries (reapIn pid status entries).1 (reapIn pid status entries).2 := by
  induction entries with
  | nil => exact .stranger (by simp)
  | cons entry rest inductionHypothesis =>
      rw [reapIn]
      by_cases member : pid ∈ entry.processes
      · rw [if_pos member]
        dsimp only
        by_cases finished : (entry.afterReaping pid status).processes = []
        · rw [if_pos (List.isEmpty_iff.2 finished)]
          exact .completes [] member finished
        · rw [if_neg fun empty => finished (List.isEmpty_iff.1 empty)]
          exact .continues [] member finished
      · rw [if_neg member]
        generalize reapIn pid status rest = reaped at inductionHypothesis
        obtain ⟨completed, left⟩ := reaped
        cases inductionHypothesis with
        | stranger strange => exact .stranger (by simpa [member] using strange)
        | @continues before after owner owned remaining =>
            exact .continues (entry :: before) owned remaining
        | @completes before after owner owned finished =>
            exact .completes (entry :: before) owned finished

theorem markReaped_reaps (registry : Registry) (pid : Pid) (status : Int) :
    Reaps pid status registry.entries (registry.markReaped pid status).1
      (registry.markReaped pid status).2.entries :=
  reapIn_reaps pid status registry.entries

/-! ## What every operation keeps -/

/-- Every entry is known by its last process, and no process is listed twice. -/
structure IsKeyed (entries : List Entry) : Prop where
  named : ∀ entry ∈ entries, entry.IsNamed
  distinct : (entries.flatMap Entry.processes).Nodup

namespace IsKeyed

variable {entries : List Entry} {entry : Entry} {pid : Pid}

theorem nil : IsKeyed [] where
  named := by simp
  distinct := by simp

/-- Fewer entries are as well known. -/
theorem sublist (keyed : IsKeyed entries) {fewer : List Entry} (less : fewer.Sublist entries) :
    IsKeyed fewer where
  named := fun entry member => keyed.named entry (less.subset member)
  distinct := keyed.distinct.sublist (less.flatMap Entry.processes)

/-- No two entries have a process in common. -/
theorem disjoint (keyed : IsKeyed entries) :
    entries.Pairwise fun one other => one.processes.Disjoint other.processes :=
  (List.nodup_flatMap.1 keyed.distinct).2

theorem nodup_of_mem (keyed : IsKeyed entries) (listed : entry ∈ entries) :
    entry.processes.Nodup :=
  (List.nodup_flatMap.1 keyed.distinct).1 entry listed

/-- No two entries have the same name. -/
theorem nodup_names (keyed : IsKeyed entries) : (entries.map Entry.pid).Nodup := by
  rw [List.Nodup, List.pairwise_map]
  apply keyed.disjoint.imp_of_mem
  intro one other oneListed otherListed apart same
  have oneMember := (keyed.named one oneListed).mem
  have otherMember := (keyed.named other otherListed).mem
  exact apart oneMember (same ▸ otherMember)

/-- The name of an entry is the last of its processes. -/
theorem pid_eq_iff (keyed : IsKeyed entries) (listed : entry ∈ entries) :
    entry.pid = pid ↔ entry.processes.getLast? = some pid := by
  rw [keyed.named entry listed, Option.some.injEq]

/-- An entry of new processes can be added. -/
theorem append (keyed : IsKeyed entries) (named : entry.IsNamed)
    (distinct : entry.processes.Nodup)
    (new : ∀ pid ∈ entry.processes, ∀ listed ∈ entries, pid ∉ listed.processes) :
    IsKeyed (entries ++ [entry]) where
  named := by
    intro listed member
    rw [List.mem_append, List.mem_singleton] at member
    obtain earlier | rfl := member
    · exact keyed.named listed earlier
    · exact named
  distinct := by
    rw [List.flatMap_append, List.flatMap_singleton, List.nodup_append]
    refine ⟨keyed.distinct, distinct, ?_⟩
    intro known knownMember pid member same
    obtain ⟨listed, isListed, inside⟩ := List.mem_flatMap.1 knownMember
    exact new pid member listed isListed (same ▸ inside)

theorem reaps (keyed : IsKeyed entries) {status : Int} {completed : Option Entry}
    {left : List Entry} (reaped : Reaps pid status entries completed left) : IsKeyed left := by
  cases reaped with
  | stranger strange => exact keyed
  | @completes before after entry member finished =>
      exact keyed.sublist ((List.sublist_cons_self entry after).append_left before)
  | @continues before after entry member remaining =>
      constructor
      · intro listed present
        rw [List.mem_append, List.mem_cons] at present
        obtain earlier | rfl | later := present
        · exact keyed.named listed (List.mem_append_left _ earlier)
        · exact Entry.isNamed_afterReaping status remaining
        · exact keyed.named listed (List.mem_append_right _ (List.mem_cons_of_mem _ later))
      · have distinct := keyed.distinct
        rw [List.flatMap_append, List.flatMap_cons] at distinct ⊢
        have fewer : (entry.afterReaping pid status).processes.Sublist entry.processes :=
          List.filter_sublist
        exact distinct.sublist ((fewer.append_right _).append_left _)

variable {registry : Registry}

/-- Looking up a process finds the entry of which it is the last one. -/
theorem lookup?_eq_some_iff (keyed : IsKeyed registry.entries) :
    registry.lookup? pid = some entry ↔
      entry ∈ registry.entries ∧ entry.processes.getLast? = some pid := by
  constructor
  · intro found
    have listed := List.mem_of_find?_eq_some found
    have matching : entry.pid = pid := by simpa using List.find?_some found
    exact ⟨listed, (keyed.pid_eq_iff listed).1 matching⟩
  · intro ⟨listed, last⟩
    have matching := (keyed.pid_eq_iff listed).2 last
    cases found : registry.lookup? pid with
    | none => exact absurd matching (lookup?_eq_none_iff.1 found entry listed)
    | some other =>
        have otherListed := List.mem_of_find?_eq_some found
        have otherMatching : other.pid = pid := by simpa using List.find?_some found
        have same : other.pid = entry.pid := otherMatching.trans matching.symm
        rw [List.inj_on_of_nodup_map keyed.nodup_names otherListed listed same]

/-- Removing by a process takes out the entry of which it is the last one. -/
theorem remove_eq_ok_iff (keyed : IsKeyed registry.entries) :
    (∃ changed, registry.remove pid = .ok (entry, changed)) ↔
      entry ∈ registry.entries ∧ entry.processes.getLast? = some pid := by
  constructor
  · intro ⟨changed, removed⟩
    obtain ⟨before, after, split, named, -, -⟩ := remove_eq_ok removed
    have listed : entry ∈ registry.entries := by simp [split]
    exact ⟨listed, (keyed.pid_eq_iff listed).1 named⟩
  · intro ⟨listed, last⟩
    have named := (keyed.pid_eq_iff listed).2 last
    cases removed : registry.remove pid with
    | error failure => exact absurd named ((remove_eq_error removed).1 entry listed)
    | ok found =>
        obtain ⟨other, changed⟩ := found
        obtain ⟨before, after, split, otherNamed, -, -⟩ := remove_eq_ok removed
        have otherListed : other ∈ registry.entries := by simp [split]
        have same : other.pid = entry.pid := otherNamed.trans named.symm
        rw [List.inj_on_of_nodup_map keyed.nodup_names otherListed listed same]
        exact ⟨changed, rfl⟩

end IsKeyed

end Registry

end JobControl
