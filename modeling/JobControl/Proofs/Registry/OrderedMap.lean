import JobControl.Builtin
import JobControl.Proofs.Numerals
import JobControl.Proofs.Registry
import Mathlib.Data.List.ReduceOption
/-!
# The registry is an ordered map

Every job that is ever inserted gets a slot of its own, behind those of the jobs inserted before
it; the slot is empty once the job has left.  The rules of `Serves` say what each request does to
the slots, with the last process of a job as its key.  A registry that is only given jobs of new
processes lists the filled slots in order, gives the replies of the rules, and never has two jobs
of one key; so the name under which a job is printed brings that job to the foreground.
-/

namespace JobControl

/-- An entry as it is when a job is registered. -/
inductive Entry.IsNew : Entry → Prop where
  | ofProcesses {job : Job} {processes : List Pid} {started : Moment} {entry : Entry}
      (made : Entry.ofProcesses job processes started = .ok entry) : entry.IsNew
  | withFailedLastStep {entry : Entry} (new : entry.IsNew) (status : Int) :
      (entry.withFailedLastStep status).IsNew

theorem Entry.IsNew.named {entry : Entry} (new : entry.IsNew) : entry.IsNamed := by
  induction new with
  | ofProcesses made => exact Entry.isNamed_of_ofProcesses made
  | withFailedLastStep _ _ inductionHypothesis => exact inductionHypothesis

/-- A number that a child can have. -/
def Pid.IsOfChild (pid : Pid) : Prop :=
  1 ≤ pid.number ∧ pid.number ≤ Builtin.largestPid

namespace Registry

/-! ## Requests -/

/-- What is asked of a registry. -/
inductive Request where
  | insert (entry : Entry)
  | remove (pid : Pid)
  | removeOldest
  | reap (pid : Pid) (status : Int)
  | drain
  deriving DecidableEq, Repr

/-- What a registry replies. -/
inductive Reply where
  | inserted
  | gave (entry : Entry)
  /-- A reaped process was noted; the entry is the one that it completed. -/
  | noted (completed : Option Entry)
  | drained (entries : List Entry)
  | refused (failure : Failure)
  deriving DecidableEq, Repr

/-- The reply to a request that may fail; a refusal leaves the registry as it is. -/
def replyWith (registry : Registry) : Except Failure (Reply × Registry) → Reply × Registry
  | .ok result => result
  | .error failure => (.refused failure, registry)

def serve (registry : Registry) : Request → Reply × Registry
  | .insert entry =>
      registry.replyWith ((registry.insert entry).map fun changed => (.inserted, changed))
  | .remove pid =>
      registry.replyWith ((registry.remove pid).map (Prod.map .gave id))
  | .removeOldest =>
      registry.replyWith (registry.removeOldest.map (Prod.map .gave id))
  | .reap pid status => (registry.markReaped pid status).map .noted id
  | .drain => registry.drain.map .drained id

def serveAll (registry : Registry) : List Request → List Reply × Registry
  | [] => ([], registry)
  | request :: rest =>
      ((registry.serve request).2.serveAll rest).map ((registry.serve request).1 :: ·) id

/-- Only new entries are inserted, of distinct processes that no listed entry has. -/
def Admits (registry : Registry) : Request → Prop
  | .insert entry =>
      entry.IsNew ∧ entry.processes.Nodup ∧
        ∀ pid ∈ entry.processes, ∀ listed ∈ registry.entries, pid ∉ listed.processes
  | _ => True

def AdmitsAll (registry : Registry) : List Request → Prop
  | [] => True
  | request :: rest => registry.Admits request ∧ (registry.serve request).2.AdmitsAll rest

/-! ## Slots -/

/-- A slot for every job ever inserted, in order; the slot of a job that has left is empty. -/
abbrev Slots : Type :=
  List (Option Entry)

/-- What an ordered map of a capacity replies to a request, and what becomes of its slots. -/
inductive Serves (capacity : Option Nat) : Slots → Request → Reply → Slots → Prop where
  | inserts {slots : Slots} {entry : Entry}
      (room : ∀ limit, capacity = some limit → slots.reduceOption.length < limit) :
      Serves capacity slots (.insert entry) .inserted (slots ++ [some entry])
  | full {slots : Slots} {entry : Entry} {limit : Nat} (limited : capacity = some limit)
      (reached : limit ≤ slots.reduceOption.length) :
      Serves capacity slots (.insert entry) (.refused (.tooManyBackgroundJobs limit)) slots
  | removes {before after : Slots} {entry : Entry} {pid : Pid}
      (key : entry.processes.getLast? = some pid) :
      Serves capacity (before ++ some entry :: after) (.remove pid) (.gave entry)
        (before ++ none :: after)
  | unknown {slots : Slots} {pid : Pid}
      (other : ∀ entry, some entry ∈ slots → entry.processes.getLast? ≠ some pid) :
      Serves capacity slots (.remove pid)
        (.refused (.jobNotFound (toString pid.number))) slots
  | removesOldest {before after : Slots} {entry : Entry} (older : ∀ slot ∈ before, slot = none) :
      Serves capacity (before ++ some entry :: after) .removeOldest (.gave entry)
        (before ++ none :: after)
  | empty {slots : Slots} (nothing : ∀ slot ∈ slots, slot = none) :
      Serves capacity slots .removeOldest (.refused .noBackgroundJobs) slots
  | reaps {before after : Slots} {entry : Entry} {pid : Pid} {status : Int}
      (member : pid ∈ entry.processes) (others : entry.processes ≠ [pid]) :
      Serves capacity (before ++ some entry :: after) (.reap pid status) (.noted none)
        (before ++ some (entry.afterReaping pid status) :: after)
  | completes {before after : Slots} {entry : Entry} {pid : Pid} {status : Int}
      (only : entry.processes = [pid]) :
      Serves capacity (before ++ some entry :: after) (.reap pid status)
        (.noted (some (entry.afterReaping pid status))) (before ++ none :: after)
  | stranger {slots : Slots} {pid : Pid} {status : Int}
      (strange : ∀ entry, some entry ∈ slots → pid ∉ entry.processes) :
      Serves capacity slots (.reap pid status) (.noted none) slots
  | drains {slots : Slots} :
      Serves capacity slots .drain (.drained slots.reduceOption) (slots.map fun _ => none)

/-- The replies of an ordered map to one request after the other. -/
inductive ServesAll (capacity : Option Nat) :
    Slots → List Request → List Reply → Slots → Prop where
  | nil {slots : Slots} : ServesAll capacity slots [] [] slots
  | cons {slots later last : Slots} {request : Request} {reply : Reply}
      {requests : List Request} {replies : List Reply}
      (first : Serves capacity slots request reply later)
      (others : ServesAll capacity later requests replies last) :
      ServesAll capacity slots (request :: requests) (reply :: replies) last

private theorem slots_of_split {slots : Slots} {before after : List Entry} {entry : Entry}
    (split : slots.reduceOption = before ++ entry :: after) :
    ∃ front back, slots = front ++ some entry :: back ∧
      front.reduceOption = before ∧ back.reduceOption = after := by
  obtain ⟨front, others, rfl, frontListed, othersListed⟩ :=
    (List.reduceOption_eq_append_iff slots _ _).1 split
  obtain ⟨empty, slot, back, rfl, allEmpty, filled, backListed⟩ :=
    List.filterMap_eq_cons_iff.1 othersListed
  have nothing : empty.reduceOption = [] := List.filterMap_eq_nil_iff.2 allEmpty
  obtain rfl : slot = some entry := filled
  exact ⟨front ++ empty, back, by simp, by
    rw [List.reduceOption_append, frontListed, nothing, List.append_nil], backListed⟩

private theorem reduceOption_emptied (before after : Slots) :
    (before ++ none :: after).reduceOption = before.reduceOption ++ after.reduceOption := by
  rw [List.reduceOption_append, List.reduceOption_cons_of_none]

private theorem reduceOption_filled (before after : Slots) (entry : Entry) :
    (before ++ some entry :: after).reduceOption =
      before.reduceOption ++ entry :: after.reduceOption := by
  rw [List.reduceOption_append, List.reduceOption_cons_of_some]

/-! ## One request -/

/-- The registry lists the filled slots of an ordered map of its capacity. -/
structure Shows (registry : Registry) (capacity : Option Nat) (slots : Slots) : Prop where
  capacity : registry.capacity = capacity
  listed : registry.entries = slots.reduceOption
  keyed : IsKeyed registry.entries

namespace Shows

variable {registry : Registry} {capacity : Option Nat} {slots : Slots}

/-- A reply is that of the map, and what is listed after it too. -/
def Agrees (capacity : Option Nat) (slots : Slots) (request : Request)
    (served : Reply × Registry) : Prop :=
  ∃ later, Serves capacity slots request served.1 later ∧ served.2.Shows capacity later

theorem insert (shows : registry.Shows capacity slots) {entry : Entry}
    (admitted : registry.Admits (.insert entry)) :
    Agrees capacity slots (.insert entry) (registry.serve (.insert entry)) := by
  obtain ⟨new, distinct, apart⟩ := admitted
  have named := new.named
  -- Names are processes, so an entry of new processes is never refused for its name.
  have newName : ∀ listed ∈ registry.entries, listed.pid ≠ entry.pid := by
    intro listed member same
    have owned := (shows.keyed.named listed member).mem
    exact apart entry.pid named.mem listed member (same ▸ owned)
  rw [Registry.serve, insert_of_new newName]
  by_cases full : registry.isFull = true
  · obtain ⟨limit, limited, reached⟩ := isFull_eq_true_iff.1 full
    rw [if_pos full, limited]
    rw [shows.capacity] at limited
    rw [shows.listed] at reached
    exact ⟨slots, .full limited reached, shows⟩
  · rw [if_neg full]
    have room : ∀ limit, capacity = some limit → slots.reduceOption.length < limit := by
      intro limit limited
      by_contra reached
      rw [← shows.listed] at reached
      exact full (isFull_eq_true_iff.2 ⟨limit, shows.capacity.trans limited, by omega⟩)
    refine ⟨slots ++ [some entry], .inserts room, shows.capacity, ?_, ?_⟩
    · rw [reduceOption_filled, ← shows.listed]
      rfl
    · exact shows.keyed.append named distinct apart

/-- Emptying the slot of a listed entry takes it out of the list. -/
theorem emptied (shows : registry.Shows capacity slots) {before after : Slots} {entry : Entry}
    {changed : Registry} (split : slots = before ++ some entry :: after)
    (left : changed = { registry with entries := before.reduceOption ++ after.reduceOption }) :
    changed.Shows capacity (before ++ none :: after) where
  capacity := left ▸ shows.capacity
  listed := by rw [left, reduceOption_emptied]
  keyed := by
    rw [left]
    apply shows.keyed.sublist
    rw [shows.listed, split, reduceOption_filled]
    exact (List.sublist_cons_self _ _).append_left _

theorem remove (shows : registry.Shows capacity slots) (pid : Pid) :
    Agrees capacity slots (.remove pid) (registry.serve (.remove pid)) := by
  rw [Registry.serve]
  cases removed : registry.remove pid with
  | error failure =>
      obtain ⟨absent, rfl⟩ := remove_eq_error removed
      refine ⟨slots, .unknown ?_, shows⟩
      intro entry filled last
      have listed : entry ∈ registry.entries := by
        rw [shows.listed]
        exact List.reduceOption_mem_iff.2 filled
      exact absent entry listed ((shows.keyed.pid_eq_iff listed).2 last)
  | ok found =>
      obtain ⟨entry, changed⟩ := found
      obtain ⟨before, after, split, named, -, left⟩ := remove_eq_ok removed
      have listed : entry ∈ registry.entries := by simp [split]
      have key := (shows.keyed.pid_eq_iff listed).1 named
      rw [shows.listed] at split
      obtain ⟨front, back, rfl, rfl, rfl⟩ := slots_of_split split
      exact ⟨front ++ none :: back, .removes key, shows.emptied rfl left⟩

theorem removeOldest (shows : registry.Shows capacity slots) :
    Agrees capacity slots .removeOldest (registry.serve .removeOldest) := by
  rw [Registry.serve]
  cases removed : registry.removeOldest with
  | error failure =>
      obtain ⟨nothing, rfl⟩ := removeOldest_eq_error removed
      rw [shows.listed] at nothing
      exact ⟨slots, .empty (List.filterMap_eq_nil_iff.1 nothing), shows⟩
  | ok found =>
      obtain ⟨entry, changed⟩ := found
      obtain ⟨after, split, left⟩ := removeOldest_eq_ok removed
      rw [shows.listed] at split
      obtain ⟨front, back, rfl, nothing, rfl⟩ :=
        slots_of_split (split.trans (List.nil_append _).symm)
      have older : ∀ slot ∈ front, slot = none := List.filterMap_eq_nil_iff.1 nothing
      refine ⟨front ++ none :: back, .removesOldest older, shows.emptied rfl ?_⟩
      rw [nothing]
      exact left

theorem reap (shows : registry.Shows capacity slots) (pid : Pid) (status : Int) :
    Agrees capacity slots (.reap pid status) (registry.serve (.reap pid status)) := by
  rw [Registry.serve]
  have reaped := registry.markReaped_reaps pid status
  have same : (registry.markReaped pid status).2.capacity = registry.capacity := rfl
  have keyed := shows.keyed.reaps reaped
  generalize registry.markReaped pid status = result at reaped same keyed
  obtain ⟨completed, changed⟩ := result
  rw [Prod.map_apply]
  have kept : changed.capacity = capacity := same.trans shows.capacity
  have owned := shows.keyed
  rw [shows.listed] at reaped owned
  generalize listing : slots.reduceOption = entries at reaped owned
  generalize remaining : changed.entries = left at reaped keyed
  -- What has become of the entries is found again in the slots, where each job keeps its place.
  cases reaped with
  | stranger strange =>
      refine ⟨slots, .stranger ?_, kept, remaining.trans listing.symm, remaining ▸ keyed⟩
      intro entry filled
      apply strange entry
      rw [← listing]
      exact List.reduceOption_mem_iff.2 filled
  | @continues before after entry member leaves =>
      have listed : entry ∈ before ++ entry :: after := by simp
      have distinct := owned.nodup_of_mem listed
      obtain ⟨front, back, rfl, rfl, rfl⟩ := slots_of_split listing
      refine ⟨_, .reaps member ?_, kept, ?_, remaining ▸ keyed⟩
      · intro only
        exact leaves ((Entry.processes_afterReaping_eq_nil_iff status member distinct).2 only)
      · exact remaining.trans (reduceOption_filled front back _).symm
  | @completes before after entry member finished =>
      have listed : entry ∈ before ++ entry :: after := by simp
      have distinct := owned.nodup_of_mem listed
      obtain ⟨front, back, rfl, rfl, rfl⟩ := slots_of_split listing
      have only := (Entry.processes_afterReaping_eq_nil_iff status member distinct).1 finished
      refine ⟨_, .completes only, kept, ?_, remaining ▸ keyed⟩
      exact remaining.trans (reduceOption_emptied front back).symm

theorem drain (shows : registry.Shows capacity slots) :
    Agrees capacity slots .drain (registry.serve .drain) := by
  rw [Registry.serve, Registry.drain, Prod.map_apply]
  have emptied : (slots.map fun _ => none : Slots).reduceOption = [] := by
    rw [List.reduceOption, List.filterMap_eq_nil_iff]
    simp
  refine ⟨slots.map fun _ => none, ?_, shows.capacity, emptied.symm, IsKeyed.nil⟩
  rw [shows.listed]
  exact .drains

theorem serve (shows : registry.Shows capacity slots) {request : Request}
    (admitted : registry.Admits request) :
    Agrees capacity slots request (registry.serve request) := by
  cases request with
  | insert entry => exact shows.insert admitted
  | remove pid => exact shows.remove pid
  | removeOldest => exact shows.removeOldest
  | reap pid status => exact shows.reap pid status
  | drain => exact shows.drain

/-- Request after request, the registry replies as the map does. -/
theorem serveAll (shows : registry.Shows capacity slots) {requests : List Request}
    (admitted : registry.AdmitsAll requests) :
    ∃ last, ServesAll capacity slots requests (registry.serveAll requests).1 last ∧
      (registry.serveAll requests).2.Shows capacity last := by
  induction requests generalizing registry slots with
  | nil => exact ⟨slots, .nil, shows⟩
  | cons request rest inductionHypothesis =>
      obtain ⟨first, others⟩ := admitted
      obtain ⟨later, served, showsLater⟩ := shows.serve first
      obtain ⟨last, servedAll, showsLast⟩ := inductionHypothesis showsLater others
      exact ⟨last, .cons served servedAll, showsLast⟩

end Shows

end Registry

/-! ## The name that is printed -/

private theorem Pid.IsOfChild.exists_nat {pid : Pid} (child : pid.IsOfChild) :
    ∃ n : Nat, pid = ⟨n⟩ ∧ 1 ≤ n ∧ n ≤ Builtin.largestPid := by
  obtain ⟨number⟩ := pid
  obtain ⟨positive, bounded⟩ := child
  dsimp only at positive bounded
  exact ⟨number.toNat, by rw [Int.toNat_of_nonneg (by omega)], by omega, by omega⟩

/-- The name of a child is read back as that child. -/
theorem Builtin.readPid_name {pid : Pid} (child : pid.IsOfChild) :
    Builtin.readPid (toString pid.number) = .ok pid := by
  obtain ⟨n, rfl, positive, bounded⟩ := child.exists_nat
  have written : (toString (n : Int)).toList = Nat.toDigits 10 n := Nat.toList_repr
  have read : Text.positiveUpTo? Builtin.largestPid (Nat.toDigits 10 n) = some n :=
    Text.positiveUpTo?_eq_some_iff.2 ⟨Text.denotes_toDigits n, positive, bounded⟩
  unfold Builtin.readPid
  rw [written, read]

/-- An argument that does not begin with a dash is an operand. -/
theorem Usage.readArguments_operand (usage : Usage) {word : String}
    (noDash : word.toList.head? ≠ some '-') :
    usage.readArguments [word] = .ok ⟨[], [word]⟩ := by
  have notDashes : word ≠ "--" := by
    rintro rfl
    exact noDash rfl
  have notShort : isShortForm word.toList = false := by
    unfold isShortForm
    split
    · rename_i equal
      exact absurd (by rw [equal]; rfl) noDash
    · rfl
  have notLong : isLongForm word.toList = false := by
    unfold isLongForm
    split
    · rename_i equal
      exact absurd (by rw [equal]; rfl) noDash
    · rfl
  rw [readArguments, if_neg notDashes, notShort, notLong, readArguments]
  rfl

/-- The name of a child is an operand, not a flag. -/
theorem Builtin.operand?_name {pid : Pid} (child : pid.IsOfChild) :
    Builtin.fg.operand? [toString pid.number] = .ok (some (toString pid.number)) := by
  obtain ⟨n, rfl, -, -⟩ := child.exists_nat
  have written : (toString (n : Int)).toList = Nat.toDigits 10 n := Nat.toList_repr
  have noDash : (toString (n : Int)).toList.head? ≠ some '-' := by
    intro dash
    rw [written] at dash
    have digit := Nat.isDigit_of_mem_toDigits (by decide) (by decide) (List.mem_of_head? dash)
    exact absurd digit (by decide)
  unfold Builtin.operand? Usage.read
  rw [Usage.readArguments_operand _ noDash]
  rfl

/-- Taking the name of a child to the foreground takes the job of that name. -/
theorem Builtin.fg_run_name {pid : Pid} (child : pid.IsOfChild) (outlet : Outlet) :
    Builtin.fg.run [toString pid.number] outlet =
      Session.bringToForeground (some pid) outlet := by
  rw [Builtin.run, Builtin.operand?_name child]
  dsimp only [Builtin.runWith]
  rw [Builtin.readPid_name child]

/-! ## The registry as an ordered map -/

/-- The registry of a session is an ordered map keyed by the last process of each job. -/
structure Registry.IsOrderedMap (registry : Registry) (slots : Registry.Slots) : Prop where
  /-- The entries are listed in the order of their insertion. -/
  listed : registry.entries = slots.reduceOption
  names : (registry.entries.map Entry.pid).Nodup
  apart : registry.entries.Pairwise fun one other => one.processes.Disjoint other.processes
  lookup : ∀ pid entry, registry.lookup? pid = some entry ↔
    entry ∈ registry.entries ∧ entry.processes.getLast? = some pid
  remove : ∀ pid entry, (∃ changed, registry.remove pid = .ok (entry, changed)) ↔
    entry ∈ registry.entries ∧ entry.processes.getLast? = some pid
  /-- The others stay in order. -/
  removed : ∀ pid entry changed, registry.remove pid = .ok (entry, changed) →
    ∃ before after, registry.entries = before ++ entry :: after ∧
      changed = { registry with entries := before ++ after }
  /-- The job that is listed under a name is the one that this name brings to the foreground. -/
  foreground : ∀ entry ∈ registry.entries,
    (∃ rest, entry.describe = toString entry.pid.number ++ "\t" ++ rest) ∧
      (∃ changed, Session.takeJob registry (some entry.pid) = .ok (entry, changed)) ∧
      (entry.pid.IsOfChild → ∀ outlet, Builtin.fg.run [toString entry.pid.number] outlet =
        Session.bringToForeground (some entry.pid) outlet)

private theorem Entry.describe_name (entry : Entry) :
    ∃ rest, entry.describe = toString entry.pid.number ++ "\t" ++ rest := by
  have line : entry.describe =
      toString entry.pid.number ++ "\t" ++ entry.started.describe ++ "\t" ++ entry.job.input :=
    rfl
  exact ⟨entry.started.describe ++ "\t" ++ entry.job.input, by
    rw [line]
    simp only [String.append_assoc]⟩

private theorem Registry.Shows.isOrderedMap {registry : Registry} {capacity : Option Nat}
    {slots : Registry.Slots} (shows : registry.Shows capacity slots) :
    registry.IsOrderedMap slots where
  listed := shows.listed
  names := shows.keyed.nodup_names
  apart := shows.keyed.disjoint
  lookup := fun _ _ => shows.keyed.lookup?_eq_some_iff
  remove := fun _ _ => shows.keyed.remove_eq_ok_iff
  removed := by
    intro pid entry changed removed
    obtain ⟨before, after, split, -, -, left⟩ := Registry.remove_eq_ok removed
    exact ⟨before, after, split, left⟩
  foreground := by
    intro entry listed
    have named := shows.keyed.named entry listed
    exact ⟨entry.describe_name, shows.keyed.remove_eq_ok_iff.2 ⟨listed, named⟩,
      Builtin.fg_run_name⟩

/-- From an empty registry of any capacity, a sequence of requests that inserts only jobs of new
processes gets the replies of the ordered map, and the registry is that map after it.  This is so
after every part of the sequence, since the part is such a sequence itself. -/
theorem Registry.serveAll_isOrderedMap (capacity : Option Nat) {requests : List Registry.Request}
    (admitted : (Registry.ofCapacity capacity).AdmitsAll requests) :
    ∃ slots,
      Registry.ServesAll capacity [] requests
        ((Registry.ofCapacity capacity).serveAll requests).1 slots ∧
      ((Registry.ofCapacity capacity).serveAll requests).2.IsOrderedMap slots := by
  have empty : (Registry.ofCapacity capacity).Shows capacity [] :=
    ⟨rfl, rfl, Registry.IsKeyed.nil⟩
  obtain ⟨slots, served, shows⟩ := empty.serveAll admitted
  exact ⟨slots, served, shows.isOrderedMap⟩

/-- A pipeline loses its last process and is known by the one before it; a new job may then have
the process that was reaped, once there is room for it. -/
theorem Registry.serveAll_isOrderedMap_when_name_moves :
    let job : Job := { input := "a | b &", first := { program := "a" }, background := true }
    let pair : Entry :=
      { job, pid := ⟨6⟩, processes := [⟨5⟩, ⟨6⟩], lastStep := some ⟨6⟩, started := ⟨0⟩ }
    let single : Entry :=
      { job, pid := ⟨6⟩, processes := [⟨6⟩], lastStep := some ⟨6⟩, started := ⟨0⟩ }
    let requests : List Registry.Request :=
      [.insert pair, .reap ⟨6⟩ 0, .insert single, .remove ⟨5⟩, .insert single]
    let served := (Registry.ofCapacity (some 1)).serveAll requests
    served.1 = [.inserted, .noted none, .refused (.tooManyBackgroundJobs 1),
      .gave (pair.afterReaping ⟨6⟩ 0), .inserted] ∧
    ∃ slots, Registry.ServesAll (some 1) [] requests served.1 slots ∧
      served.2.IsOrderedMap slots := by
  intro job pair single requests served
  have pairMade : Entry.ofProcesses job [⟨5⟩, ⟨6⟩] ⟨0⟩ = .ok pair := rfl
  have singleMade : Entry.ofProcesses job [⟨6⟩] ⟨0⟩ = .ok single := rfl
  have pairNew := Entry.IsNew.ofProcesses pairMade
  have singleNew := Entry.IsNew.ofProcesses singleMade
  have admitted : (Registry.ofCapacity (some 1)).AdmitsAll requests :=
    ⟨⟨pairNew, by decide, by decide⟩, trivial, ⟨singleNew, by decide, by decide⟩, trivial,
      ⟨singleNew, by decide, by decide⟩, trivial⟩
  exact ⟨by decide, Registry.serveAll_isOrderedMap (some 1) admitted⟩

end JobControl
