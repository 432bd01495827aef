import JobControl.Proofs.Calls
import JobControl.Proofs.Registry.OrderedMap
/-!
# An entry while it is registered

Whatever is asked of a registry, and whatever else is listed in it, an entry that stays registered
agrees with the processes that its job was started with and with the reaped ones that it has been
told of.  Entries are followed by the places at which they are listed: other entries may have the
same processes, or even be equal, and a job may have been given one process twice.
-/

namespace JobControl

open Relation

namespace Registry

variable {registry : Registry} {request : Request} {place next : Nat} {entry : Entry}

/-! ## The entry that a request concerns -/

/-- The place of the entry that a request is about: the first one of the name, or with the
process. -/
def concerned? (registry : Registry) : Request → Option Nat
  | .insert _ => none
  | .remove pid => registry.entries.findIdx? fun entry => entry.pid = pid
  | .removeOldest => registry.entries.findIdx? fun _ => true
  | .reap pid _ => registry.entries.findIdx? fun entry => pid ∈ entry.processes
  | .drain => none

/-- Where an entry is listed after a request that leaves it registered.  It moves up by one place
if an entry before it has left. -/
inductive Stays (registry : Registry) (request : Request) : Nat → Nat → Prop where
  | noneLeft {place : Nat} (complete : registry.size ≤ (registry.serve request).2.size) :
      Stays registry request place place
  | laterLeft {place gone : Nat} (concerned : registry.concerned? request = some gone)
      (later : place < gone) : Stays registry request place place
  | earlierLeft {place gone : Nat} (concerned : registry.concerned? request = some gone)
      (fewer : (registry.serve request).2.size < registry.size) (earlier : gone < place) :
      Stays registry request place (place - 1)

/-- The reaped process, with its status, that the entry at a place is told of by a request. -/
def toldAt (registry : Registry) (place : Nat) (request : Request) : List (Pid × Int) :=
  match request with
  | .reap pid status => if registry.concerned? request = some place then [(pid, status)] else []
  | _ => []

section Lists

variable {wanted : Entry → Bool} {entries before after : List Entry} {pid : Pid} {status : Int}

private theorem findIdx?_eq_some_split (found : entries.findIdx? wanted = some place) :
    ∃ before entry after, entries = before ++ entry :: after ∧ before.length = place ∧
      wanted entry = true ∧ ∀ earlier ∈ before, wanted earlier = false := by
  obtain ⟨inside, fitting, unfit⟩ := List.findIdx?_eq_some_iff_getElem.1 found
  refine ⟨entries.take place, entries[place], entries.drop (place + 1), ?_, ?_, fitting, ?_⟩
  · rw [← List.drop_eq_getElem_cons inside, List.take_append_drop]
  · rw [List.length_take]
    omega
  · intro earlier member
    obtain ⟨i, short, rfl⟩ := List.mem_take_iff_getElem.1 member
    simpa using unfit i (by omega)

private theorem takeFirst?_append (unwanted : ∀ earlier ∈ before, wanted earlier = false)
    (fitting : wanted entry = true) :
    takeFirst? wanted (before ++ entry :: after) = some (entry, before ++ after) := by
  induction before with
  | nil => simp [takeFirst?, fitting]
  | cons first rest inductionHypothesis =>
      obtain ⟨unfit, others⟩ := List.forall_mem_cons.1 unwanted
      simp [takeFirst?, unfit, inductionHypothesis others]

private theorem reapIn_append (strange : ∀ earlier ∈ before, pid ∉ earlier.processes)
    (member : pid ∈ entry.processes) :
    reapIn pid status (before ++ entry :: after) =
      if (entry.afterReaping pid status).processes = [] then
        (some (entry.afterReaping pid status), before ++ after)
      else (none, before ++ entry.afterReaping pid status :: after) := by
  induction before with
  | nil =>
      rw [List.nil_append, reapIn, if_pos member]
      simp only [List.isEmpty_iff, List.nil_append]
  | cons first rest inductionHypothesis =>
      obtain ⟨apart, others⟩ := List.forall_mem_cons.1 strange
      rw [List.cons_append, reapIn, if_neg apart, inductionHypothesis others]
      by_cases finished : (entry.afterReaping pid status).processes = []
      · rw [if_pos finished, if_pos finished]
        rfl
      · rw [if_neg finished, if_neg finished]
        rfl

private theorem reapIn_of_strange (strange : ∀ entry ∈ entries, pid ∉ entry.processes) :
    reapIn pid status entries = (none, entries) := by
  induction entries with
  | nil => rfl
  | cons first rest inductionHypothesis =>
      obtain ⟨apart, others⟩ := List.forall_mem_cons.1 strange
      rw [reapIn, if_neg apart, inductionHypothesis others]

end Lists

/-- What a request does to the entries of a registry. -/
inductive Treats (registry : Registry) (request : Request) : List Entry → Prop where
  /-- At most another entry is added. -/
  | keeps {served : List Entry} (concerned : registry.concerned? request = none)
      (others : registry.entries <+: served) : Treats registry request served
  | drops {before after : List Entry} {entry : Entry}
      (listed : registry.entries = before ++ entry :: after)
      (concerned : registry.concerned? request = some before.length) :
      Treats registry request (before ++ after)
  | tells {before after : List Entry} {entry : Entry} {pid : Pid} {status : Int}
      (asked : request = .reap pid status)
      (listed : registry.entries = before ++ entry :: after)
      (concerned : registry.concerned? request = some before.length)
      (member : pid ∈ entry.processes)
      (left : (entry.afterReaping pid status).processes ≠ []) :
      Treats registry request (before ++ entry.afterReaping pid status :: after)
  | empties (concerned : registry.concerned? request = none) : Treats registry request []

private theorem treats_serve (registry : Registry) (request : Request) :
    registry.Treats request (registry.serve request).2.entries := by
  cases request with
  | insert entry =>
      refine .keeps rfl ?_
      rw [serve]
      cases inserted : registry.insert entry with
      | error failure => exact List.prefix_rfl
      | ok changed =>
          rw [(insert_eq_ok inserted).2]
          exact List.prefix_append _ _
  | drain => exact .empties rfl
  | remove pid =>
      cases concerned : registry.concerned? (.remove pid) with
      | none =>
          have unwanted := List.findIdx?_eq_none_iff.1 concerned
          refine .keeps concerned ?_
          rw [serve, remove, takeFirst?_eq_none_iff.2 unwanted]
          exact List.prefix_rfl
      | some gone =>
          obtain ⟨before, entry, after, listed, rfl, named, unnamed⟩ :=
            findIdx?_eq_some_split concerned
          have treated := Treats.drops listed concerned
          rwa [serve, remove, listed, takeFirst?_append unnamed named]
  | removeOldest =>
      cases listed : registry.entries with
      | nil =>
          refine .keeps ?_ ?_
          · rw [concerned?, listed]
            rfl
          · rw [listed]
            exact List.nil_prefix
      | cons oldest left =>
          have split : registry.entries = [] ++ oldest :: left := listed
          have treated : registry.Treats .removeOldest ([] ++ left) :=
            .drops split (by rw [concerned?, listed]; rfl)
          rwa [serve, removeOldest, listed]
  | reap pid status =>
      have served : (registry.serve (.reap pid status)).2.entries =
          (reapIn pid status registry.entries).2 := rfl
      rw [served]
      cases concerned : registry.concerned? (.reap pid status) with
      | none =>
          have strange : ∀ entry ∈ registry.entries, pid ∉ entry.processes := by
            simpa using List.findIdx?_eq_none_iff.1 concerned
          rw [reapIn_of_strange strange]
          exact .keeps concerned List.prefix_rfl
      | some owner =>
          obtain ⟨before, entry, after, listed, rfl, member, strange⟩ :=
            findIdx?_eq_some_split concerned
          simp only [decide_eq_true_eq, decide_eq_false_iff_not] at member strange
          rw [listed, reapIn_append strange member]
          by_cases finished : (entry.afterReaping pid status).processes = []
          · rw [if_pos finished]
            exact .drops listed concerned
          · rw [if_neg finished]
            exact .tells rfl listed concerned member finished

private theorem toldAt_of_ne (unconcerned : registry.concerned? request ≠ some place) :
    registry.toldAt place request = [] := by
  cases request with
  | reap pid status => exact if_neg unconcerned
  | _ => rfl

private theorem Stays.of_nobody (stays : registry.Stays request place next)
    (nobody : registry.concerned? request = none) :
    next = place ∧ registry.size ≤ (registry.serve request).2.size := by
  cases stays with
  | noneLeft complete => exact ⟨rfl, complete⟩
  | laterLeft concerned _ => simp [nobody] at concerned
  | earlierLeft concerned _ _ => simp [nobody] at concerned

private theorem Stays.of_concerned {gone : Nat} (stays : registry.Stays request place next)
    (concerned : registry.concerned? request = some gone) :
    (next = place ∧ (place < gone ∨ registry.size ≤ (registry.serve request).2.size)) ∨
      (next = place - 1 ∧ gone < place ∧
        (registry.serve request).2.size < registry.size) := by
  cases stays with
  | noneLeft complete => exact .inl ⟨rfl, .inr complete⟩
  | laterLeft also later =>
      cases concerned.symm.trans also
      exact .inl ⟨rfl, .inl later⟩
  | earlierLeft also fewer earlier =>
      cases concerned.symm.trans also
      exact .inr ⟨rfl, earlier, fewer⟩

/-- An entry that stays is listed as it was, or is told of one of its processes and has others
left. -/
theorem Stays.entry_cases (stays : registry.Stays request place next)
    (there : registry.entries[place]? = some entry) :
    ((registry.serve request).2.entries[next]? = some entry ∧
        registry.toldAt place request = []) ∨
      ∃ pid status, registry.toldAt place request = [(pid, status)] ∧ pid ∈ entry.processes ∧
        (entry.afterReaping pid status).processes ≠ [] ∧
        (registry.serve request).2.entries[next]? = some (entry.afterReaping pid status) := by
  have treats := treats_serve registry request
  have sizes : (registry.serve request).2.size = (registry.serve request).2.entries.length := rfl
  generalize (registry.serve request).2.entries = served at treats sizes
  cases treats with
  | keeps nobody others =>
      obtain ⟨rfl, -⟩ := stays.of_nobody nobody
      obtain ⟨added, rfl⟩ := others
      have inside : next < registry.entries.length := (List.getElem?_eq_some_iff.1 there).1
      rw [List.getElem?_append_left inside]
      exact .inl ⟨there, toldAt_of_ne (by simp [nobody])⟩
  | empties nobody =>
      obtain ⟨-, complete⟩ := stays.of_nobody nobody
      have nothing : registry.entries = [] := List.length_eq_zero_iff.1 (by
        rw [sizes] at complete
        exact Nat.le_zero.1 complete)
      simp [nothing] at there
  | @drops before after other listed concerned =>
      have fewer : (registry.serve request).2.size < registry.size := by
        rw [sizes, size, listed]
        simp
      rw [listed] at there
      obtain ⟨rfl, earlier⟩ | ⟨rfl, later, -⟩ := stays.of_concerned concerned
      · have inside : next < before.length := by omega
        rw [List.getElem?_append_left inside] at there ⊢
        exact .inl ⟨there, toldAt_of_ne (by rw [concerned]; simp; omega)⟩
      · rw [List.getElem?_append_right (by omega)] at there ⊢
        obtain ⟨above, rfl⟩ : ∃ above, place = before.length + 1 + above :=
          ⟨place - (before.length + 1), by omega⟩
        refine .inl ⟨?_, toldAt_of_ne (by rw [concerned]; simp; omega)⟩
        rw [show before.length + 1 + above - before.length = above + 1 by omega,
          List.getElem?_cons_succ] at there
        rwa [show before.length + 1 + above - 1 - before.length = above by omega]
  | @tells before after owner pid status asked listed concerned member left =>
      have complete : (registry.serve request).2.size = registry.size := by
        rw [sizes, size, listed]
        simp
      rw [listed] at there
      obtain ⟨rfl, -⟩ | ⟨-, -, fewer⟩ := stays.of_concerned concerned
      · by_cases own : next = before.length
        · subst own
          rw [List.getElem?_append_right (Nat.le_refl _), Nat.sub_self,
            List.getElem?_cons_zero] at there
          cases there
          refine .inr ⟨pid, status, ?_, member, left, ?_⟩
          · rw [asked] at concerned ⊢
            exact if_pos concerned
          · rw [List.getElem?_append_right (Nat.le_refl _), Nat.sub_self, List.getElem?_cons_zero]
        · refine .inl ⟨?_, toldAt_of_ne (by rw [concerned]; simp; omega)⟩
          rw [← there]
          grind
      · omega

end Registry

/-! ## What an entry says of its job -/

/-- An entry and the job it was made for: the processes of the job, the status of its last step if
that step never started, and the reaped processes that the entry has been told of. -/
structure Entry.RemainsOf (processes : List Pid) (failed : Option Int) (told : List (Pid × Int))
    (entry : Entry) : Prop where
  unreaped : entry.processes = processes.filter fun pid => pid ∉ told.map Prod.fst
  someLeft : entry.processes ≠ []
  named : entry.IsNamed
  neverRan : ∀ status, failed = some status →
    entry.lastStep = none ∧ entry.lastStatus = some status
  ran : failed = none → ∃ last, processes.getLast? = some last ∧ entry.lastStep = some last ∧
    (entry.lastStatus = none ↔ last ∈ entry.processes) ∧
    ∀ status, entry.lastStatus = some status ↔ (last, status) ∈ told

namespace Entry.RemainsOf

variable {job : Job} {processes : List Pid} {failed : Option Int} {told : List (Pid × Int)}
  {entry : Entry}

/-- The processes that are left stand in the order of the steps. -/
theorem sublist (left : entry.RemainsOf processes failed told) :
    entry.processes.Sublist processes := by
  rw [left.unreaped]
  exact List.filter_sublist

private theorem of_entryOf {started : Moment}
    (made : Session.entryOf job processes failed started = .ok entry) :
    entry.RemainsOf processes failed [] := by
  unfold Session.entryOf Entry.ofProcesses at made
  cases last : processes.getLast? with
  | none =>
      rw [last] at made
      cases made
  | some pid =>
      rw [last] at made
      have someProcess : processes ≠ [] := by
        rintro rfl
        cases last
      have member : pid ∈ processes := List.mem_of_getLast? last
      cases failed with
      | none =>
          cases made
          exact ⟨by simp, someProcess, last, by simp, fun _ => ⟨pid, last, rfl, by simp [member],
            by simp⟩⟩
      | some status =>
          cases made
          refine ⟨by simp [Entry.withFailedLastStep], someProcess, last, ?_, by simp⟩
          rintro _ ⟨⟩
          exact ⟨rfl, rfl⟩

/-- An entry that is told of one of its processes, and has others left, says so. -/
theorem afterReaping (left : entry.RemainsOf processes failed told) {pid : Pid}
    (status : Int) (member : pid ∈ entry.processes)
    (others : (entry.afterReaping pid status).processes ≠ []) :
    (entry.afterReaping pid status).RemainsOf processes failed (told ++ [(pid, status)]) where
  unreaped := by
    rw [processes_afterReaping, left.unreaped, List.filter_filter]
    refine List.filter_congr fun process _ => ?_
    by_cases own : process = pid <;> simp [own]
  someLeft := others
  named := isNamed_afterReaping status others
  neverRan := by
    intro known never
    obtain ⟨noStep, itsStatus⟩ := left.neverRan known never
    simp [Entry.afterReaping, noStep, itsStatus]
  ran := by
    intro started
    obtain ⟨last, isLast, lastStep, unknown, isStatus⟩ := left.ran started
    refine ⟨last, isLast, lastStep, ?_, ?_⟩
    · by_cases own : last = pid
      · simp [Entry.afterReaping, lastStep, own]
      · simp [Entry.afterReaping, lastStep, own, unknown]
    · intro known
      by_cases own : last = pid
      · subst own
        -- Its own process was among those left, so no status of it has been told before.
        have untold : (last, known) ∉ told := by
          rw [← isStatus, unknown.2 member]
          simp
        simp [Entry.afterReaping, lastStep, untold, eq_comm]
      · simp [Entry.afterReaping, lastStep, own, isStatus]

/-- What is known of the last step does not change by what is told later. -/
theorem lastStatus_of_prefix (left : entry.RemainsOf processes failed told) {status : Int}
    (known : entry.lastStatus = some status) {toldLater : List (Pid × Int)} {later : Entry}
    (leftLater : later.RemainsOf processes failed toldLater) (more : told <+: toldLater) :
    later.lastStatus = some status := by
  cases failure : failed with
  | some never =>
      rw [(left.neverRan never failure).2] at known
      rw [(leftLater.neverRan never failure).2, known]
  | none =>
      obtain ⟨last, isLast, -, -, isStatus⟩ := left.ran failure
      obtain ⟨same, isLastToo, -, -, isStatusLater⟩ := leftLater.ran failure
      cases isLast.symm.trans isLastToo
      exact (isStatusLater status).2 (more.subset ((isStatus status).1 known))

end Entry.RemainsOf

/-! ## Waiting for an entry -/

namespace World

variable {σ : Type}

/-- Every wait for a process brings its status, however often it has to be made again. -/
def WaitsSucceed (world : World σ) : Prop :=
  ∀ pid state, world.Ensures (fun _ _ => True) (waitFor pid).run
    (fun outcome _ => ∃ status, outcome = .ok status) state

/-- A call that is made to wait for some processes. -/
def IsWaitFor (pids : List Pid) (call : Call) : Prop :=
  call = .bound .waits ∨ ∃ pid ∈ pids, call = .wait pid

theorem IsWaitFor.cons {pids : List Pid} {call : Call} (waits : IsWaitFor pids call) (pid : Pid) :
    IsWaitFor (pid :: pids) call := by
  rcases waits with asks | ⟨waited, member, same⟩
  · exact .inl asks
  · exact .inr ⟨waited, List.mem_cons_of_mem pid member, same⟩

/-- Waiting for some processes gives a status if one is known or that of the last step is among
them; what is known stands if it is not. -/
theorem waitForProcesses_gives {world : World σ} (succeed : world.WaitsSucceed)
    (last : Option Pid) (known : Option Int) (pids : List Pid) (state : σ) :
    world.Ensures (fun call _ => IsWaitFor pids call) (waitForProcesses last known pids).run
      (fun outcome _ => ∃ result, outcome = .ok result ∧
        (known.isSome ∨ (∃ pid ∈ pids, last = some pid) → result.isSome) ∧
        ((∀ pid ∈ pids, last ≠ some pid) → result = known)) state := by
  induction pids generalizing known state with
  | nil => exact ⟨known, rfl, by simp, fun _ => rfl⟩
  | cons pid rest inductionHypothesis =>
      have makes : Action.Makes (IsWaitFor (pid :: rest)) (fun _ => True) (waitFor pid) :=
        waitFor_makes (.inl rfl) (.inr ⟨pid, List.mem_cons_self, rfl⟩) trivial
      have only : world.Ensures (fun call _ => IsWaitFor (pid :: rest) call) (waitFor pid).run
          (fun _ _ => True) state :=
        (Program.Within.ensures (fun _ _ _ _ => trivial) (fun _ _ allowed _ => allowed)
          (fun _ _ _ _ _ _ _ => trivial) makes trivial).mono fun _ _ _ => trivial
      rw [waitForProcesses, ensures_run_bind]
      refine (only.and (succeed pid state)).mono ?_
      rintro _ after ⟨-, status, rfl⟩
      rw [afterAction_ok]
      have others := inductionHypothesis (if last = some pid then some status else known) after
      refine (others.fits_mono fun _ _ waits => waits.cons pid).mono ?_
      rintro outcome _ ⟨result, rfl, given, stands⟩
      refine ⟨result, rfl, fun sure => given ?_, fun other => ?_⟩
      · by_cases own : last = some pid
        · simp [own]
        · simpa [own] using sure
      · obtain ⟨notOwn, notLater⟩ := List.forall_mem_cons.1 other
        rw [stands notLater, if_neg notOwn]

end World

/-- Waiting for an entry, with all waits successful, gives a status: the known one, if one is
known. -/
def Entry.GivesStatus (entry : Entry) : Prop :=
  ∀ {σ : Type} (world : World σ) (state : σ), world.WaitsSucceed →
    world.Ensures (fun call _ => World.IsWaitFor entry.processes call) entry.wait.run
      (fun outcome _ => ∃ status, outcome = .ok (some status) ∧
        ∀ known, entry.lastStatus = some known → status = known) state

private theorem Entry.RemainsOf.givesStatus {processes : List Pid} {failed : Option Int}
    {told : List (Pid × Int)} {entry : Entry} (left : entry.RemainsOf processes failed told) :
    entry.GivesStatus := by
  intro σ world state succeed
  have sure : entry.lastStatus.isSome ∨ ∃ pid ∈ entry.processes, entry.lastStep = some pid := by
    cases failure : failed with
    | some status =>
        left
        simp [(left.neverRan status failure).2]
    | none =>
        obtain ⟨last, -, lastStep, unknown, -⟩ := left.ran failure
        by_cases member : last ∈ entry.processes
        · exact .inr ⟨last, member, lastStep⟩
        · left
          rwa [Option.isSome_iff_ne_none, ne_eq, unknown]
  have settled : ∀ known, entry.lastStatus = some known →
      ∀ pid ∈ entry.processes, entry.lastStep ≠ some pid := by
    intro known itsStatus pid member
    cases failure : failed with
    | some status => simp [(left.neverRan status failure).1]
    | none =>
        obtain ⟨last, -, lastStep, unknown, -⟩ := left.ran failure
        rw [lastStep]
        rintro ⟨⟩
        simp [unknown.2 member] at itsStatus
  refine (World.waitForProcesses_gives succeed entry.lastStep entry.lastStatus entry.processes
    state).mono ?_
  rintro outcome _ ⟨result, rfl, given, stands⟩
  obtain ⟨status, rfl⟩ := Option.isSome_iff_exists.1 (given sure)
  refine ⟨status, rfl, fun known itsStatus => ?_⟩
  have same := (stands (settled known itsStatus)).trans itsStatus
  exact Option.some.inj same

/-! ## Following an entry -/

/-- An entry followed through a registry: where it is listed, and the reaped processes that it has
been told of since it was first registered. -/
structure Tenure where
  registry : Registry
  place : Nat
  told : List (Pid × Int)

namespace Tenure

def entry? (tenure : Tenure) : Option Entry :=
  tenure.registry.entries[tenure.place]?

/-- A new entry has been registered, behind the others. -/
inductive Begins (entry : Entry) : Tenure → Prop where
  | inserted {registry changed : Registry} (inserted : registry.insert entry = .ok changed) :
      Begins entry ⟨changed, registry.size, []⟩

/-- One thing that may become of an entry that is registered, and stays so or is again. -/
inductive Passes : Tenure → Tenure → Prop where
  | serves {registry : Registry} {place next : Nat} {told : List (Pid × Int)}
      {request : Registry.Request} (stays : registry.Stays request place next) :
      Passes ⟨registry, place, told⟩
        ⟨(registry.serve request).2, next, told ++ registry.toldAt place request⟩
  /-- As it was when it was taken out, it is inserted again, maybe in another registry. -/
  | returns {tenure : Tenure} {entry : Entry} {registry changed : Registry}
      (there : tenure.entry? = some entry) (inserted : registry.insert entry = .ok changed) :
      Passes tenure ⟨changed, registry.size, tenure.told⟩

def Later : Tenure → Tenure → Prop :=
  ReflTransGen Passes

/-- The entry that is followed is listed at its place, and is what is left of its job. -/
def Holds (processes : List Pid) (failed : Option Int) (tenure : Tenure) : Prop :=
  ∃ entry, tenure.entry? = some entry ∧ entry.RemainsOf processes failed tenure.told

variable {entry : Entry} {processes : List Pid} {failed : Option Int} {tenure later : Tenure}

private theorem entry?_of_insert {registry changed : Registry} {told : List (Pid × Int)}
    (inserted : registry.insert entry = .ok changed) :
    Tenure.entry? ⟨changed, registry.size, told⟩ = some entry := by
  rw [(Registry.insert_eq_ok inserted).2]
  exact List.getElem?_concat_length

theorem Begins.holds (begins : Begins entry tenure) (left : entry.RemainsOf processes failed []) :
    tenure.Holds processes failed := by
  cases begins with
  | inserted inserted => exact ⟨entry, entry?_of_insert inserted, left⟩

theorem Passes.holds (passes : Passes tenure later) (holds : tenure.Holds processes failed) :
    later.Holds processes failed ∧ tenure.told <+: later.told := by
  obtain ⟨entry, there, left⟩ := holds
  cases passes with
  | serves stays =>
      obtain ⟨same, untold⟩ | ⟨pid, status, told, member, others, changed⟩ :=
        stays.entry_cases there
      · rw [untold, List.append_nil]
        exact ⟨⟨entry, same, left⟩, List.prefix_rfl⟩
      · rw [told]
        exact ⟨⟨_, changed, left.afterReaping status member others⟩, List.prefix_append _ _⟩
  | returns also inserted =>
      cases there.symm.trans also
      exact ⟨⟨entry, entry?_of_insert inserted, left⟩, List.prefix_rfl⟩

theorem Later.holds (passes : Later tenure later) (holds : tenure.Holds processes failed) :
    later.Holds processes failed ∧ tenure.told <+: later.told := by
  induction passes with
  | refl => exact ⟨holds, List.prefix_rfl⟩
  | tail _ passes inductionHypothesis =>
      obtain ⟨reached, more⟩ := inductionHypothesis
      obtain ⟨holdsLater, stillMore⟩ := passes.holds reached
      exact ⟨holdsLater, more.trans stillMore⟩

/-- What can be relied on of an entry that is registered. -/
structure Agrees (processes : List Pid) (failed : Option Int) (tenure : Tenure)
    (entry : Entry) : Prop where
  listed : tenure.entry? = some entry
  left : entry.RemainsOf processes failed tenure.told
  inOrder : entry.processes.Sublist processes
  givesStatus : entry.GivesStatus
  /-- A status that is known is known for as long as the entry is registered. -/
  lasting : ∀ later, tenure.Later later → ∀ status, entry.lastStatus = some status →
    ∃ other, later.entry? = some other ∧ other.lastStatus = some status

end Tenure

/-- A job with processes has an entry.  From when it is registered, and as long as it is, its
processes are those that it has not been told of, in order, at least one, and it is known by the
last of them.  The status of its last step is known from the start if that step never started, and
otherwise from when the entry is told of it. -/
theorem registered_entry_agrees_with_job (job : Job) {processes : List Pid}
    (someProcess : processes ≠ []) (failed : Option Int) (started : Moment) :
    ∃ entry, Session.entryOf job processes failed started = .ok entry ∧
      ∀ first, Tenure.Begins entry first → ∀ tenure, first.Later tenure →
        ∃ current, tenure.Agrees processes failed current := by
  obtain ⟨entry, made⟩ : ∃ entry, Session.entryOf job processes failed started = .ok entry := by
    unfold Session.entryOf Entry.ofProcesses
    rw [List.getLast?_eq_some_getLast someProcess]
    exact ⟨_, rfl⟩
  refine ⟨entry, made, fun first begins tenure passed => ?_⟩
  have holds := (passed.holds (begins.holds (.of_entryOf made))).1
  have ⟨current, listed, left⟩ := holds
  refine ⟨current, listed, left, left.sublist, left.givesStatus, ?_⟩
  intro later passes status known
  obtain ⟨⟨other, listedLater, leftLater⟩, more⟩ := passes.holds holds
  exact ⟨other, listedLater, left.lastStatus_of_prefix known leftLater more⟩

/-- The last of two steps ends first: the entry is then known by the other one. -/
theorem registered_entry_agrees_after_last_step :
    ∃ (tenure : Tenure) (entry : Entry), tenure.Agrees [⟨5⟩, ⟨7⟩] none entry ∧
      entry.pid = ⟨5⟩ ∧ entry.lastStatus = some 3 := by
  let job : Job :=
    { input := "cat | sleep 1 &", first := { program := "cat" }
      rest := [{ program := "sleep", arguments := ["1"] }], background := true }
  let new : Entry :=
    { job := job, pid := ⟨7⟩, processes := [⟨5⟩, ⟨7⟩], lastStep := some ⟨7⟩, started := ⟨0⟩ }
  let registry : Registry := { entries := [new] }
  have inserted : Registry.insert {} new = .ok registry := rfl
  have begins : Tenure.Begins new ⟨registry, 0, []⟩ := .inserted inserted
  have stays : registry.Stays (.reap ⟨7⟩ 3) 0 0 := .noneLeft (Nat.le_refl 1)
  have someProcess : ([⟨5⟩, ⟨7⟩] : List Pid) ≠ [] := by decide
  obtain ⟨entry, made, agrees⟩ := registered_entry_agrees_with_job job someProcess none ⟨0⟩
  obtain rfl : new = entry := by
    cases made
    rfl
  obtain ⟨current, holds⟩ := agrees _ begins _ (.single (.serves stays))
  cases holds.listed
  exact ⟨_, _, holds, rfl, rfl⟩

end JobControl
