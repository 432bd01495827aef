import JobControl.LineEditor
import JobControl.Proofs.Sessions
import JobControl.Proofs.Unreaped.Starting
/-!
# The registry and the unreaped processes

As long as a session goes on, its registry lists the unreaped processes in the order in which they
were started, each job with its own and the jobs in the order in which they were registered; and no
process is signalled.  Reaping takes a process out of its job; a job in the foreground is waited
for before anything else is done; a job in the background is registered as soon as its processes
have been started.
-/

namespace JobControl

open World

/-- The kernel that gives new children other numbers than the unreaped processes have, where a
registry lists those that there are at a moment, and that writes whatever text is for the output. -/
abbrev Kernel.attending (endings : Ending → Prop) (before : Kernel) (begun : Registry) :
    World Kernel :=
  (Kernel.renewing endings before begun.processes).restrict (Kernel.Hears [.output])

/-- What is ensured where text for the output is written is ensured where new children have new
numbers, too. -/
theorem World.Ensures.attended {α : Type} {endings : Ending → Prop} {before kernel : Kernel}
    {begun : Registry} {fits : Call → Kernel → Prop} {program : Program α}
    {post : α → Kernel → Prop}
    (ensured : (Kernel.hearing endings [.output]).Ensures fits program post kernel) :
    (Kernel.attending endings before begun).Ensures fits program post kernel := by
  unfold Kernel.attending Kernel.renewing
  rw [restrict_comm]
  exact ensured.restrict (before.Renews begun.processes)

/-- What has been written does nothing about children. -/
theorem HasWritten.sees {endings : Ending → Prop} {before kernel after : Kernel}
    {outlet : Outlet} {texts : List String} {events : List ChildEvent}
    (written : HasWritten endings kernel outlet texts after) (sees : before.Sees events kernel) :
    before.Sees events after := by
  apply sees.of_record written.1
  have silent : (fun text => Answered.childEvent? ⟨.write outlet text, .ok ()⟩) =
      fun _ => none := rfl
  rw [written.2, silent, List.filterMap_none, List.append_nil]

/-! ## What is left of the jobs -/

/-- One entry is what is left of another when some of its processes have been reaped. -/
structure Entry.IsLeftOf (entry whole : Entry) : Prop where
  job : entry.job = whole.job
  processes : entry.processes.Sublist whole.processes

instance : Std.Refl Entry.IsLeftOf where
  refl entry := ⟨rfl, List.Sublist.refl entry.processes⟩

instance : IsTrans Entry Entry.IsLeftOf where
  trans _ _ _ first second := ⟨first.job.trans second.job, first.processes.trans second.processes⟩

private theorem Entry.afterReaping_isLeftOf (entry : Entry) (pid : Pid) (status : Int) :
    (entry.afterReaping pid status).IsLeftOf entry :=
  ⟨entry.job_afterReaping pid status, List.filter_sublist⟩

/-- The jobs that are listed at a moment and those that are registered by the events since then, in
the order in which they were registered, each with all of its processes. -/
inductive Enrolled (first : List Entry) : List ChildEvent → List Entry → Prop
  | nothing : Enrolled first [] first
  | further {events : List ChildEvent} {entries : List Entry} (added : List ChildEvent) :
      Enrolled first events entries → Enrolled first (events ++ added) entries
  | registers {events launches : List ChildEvent} {entries : List Entry} {entry : Entry} :
      Enrolled first events entries →
      List.Forall₂ ChildEvent.Launches launches entry.job.steps →
      entry.processes = launches.filterMap ChildEvent.started? →
      Enrolled first (events ++ launches) (entries ++ [entry])

/-- Some entries are what is left of jobs that are enrolled, in the same order. -/
def Remain (first : List Entry) (events : List ChildEvent) (entries : List Entry) : Prop :=
  ∃ enrolled, Enrolled first events enrolled ∧
    List.SublistForall₂ Entry.IsLeftOf entries enrolled

namespace Remain

variable {first entries left : List Entry} {events launches : List ChildEvent}

theorem nothing (first : List Entry) : Remain first [] first :=
  ⟨first, .nothing, (List.Sublist.refl first).sublistForall₂⟩

theorem further (remain : Remain first events entries) (added : List ChildEvent) :
    Remain first (events ++ added) entries := by
  obtain ⟨enrolled, enrolls, same⟩ := remain
  exact ⟨enrolled, enrolls.further added, same⟩

theorem loses (remain : Remain first events entries)
    (fewer : List.SublistForall₂ Entry.IsLeftOf left entries) : Remain first events left := by
  obtain ⟨enrolled, enrolls, same⟩ := remain
  exact ⟨enrolled, enrolls, Trans.trans fewer same⟩

theorem registers (remain : Remain first events entries) {entry : Entry}
    (launched : List.Forall₂ ChildEvent.Launches launches entry.job.steps)
    (processes : entry.processes = launches.filterMap ChildEvent.started?) :
    Remain first (events ++ launches) (entries ++ [entry]) := by
  obtain ⟨enrolled, enrolls, same⟩ := remain
  obtain ⟨wholes, pieces, kept⟩ := List.sublistForall₂_iff.1 same
  refine ⟨enrolled ++ [entry], enrolls.registers launched processes, ?_⟩
  apply List.sublistForall₂_iff.2
  exact ⟨wholes ++ [entry], List.rel_append pieces (List.forall₂_refl [entry]),
    kept.append_right [entry]⟩

end Remain

/-- Reaping leaves less of one entry, or takes it out. -/
theorem Registry.Reaps.sublistForall₂ {pid : Pid} {status : Int} {entries left : List Entry}
    {completed : Option Entry} (reaps : Registry.Reaps pid status entries completed left) :
    List.SublistForall₂ Entry.IsLeftOf left entries := by
  cases reaps with
  | stranger _ => exact (List.Sublist.refl entries).sublistForall₂
  | @continues before after entry _ _ =>
      apply List.sublistForall₂_iff.2
      refine ⟨before ++ entry :: after, ?_, List.Sublist.refl _⟩
      apply List.rel_append (List.forall₂_refl before)
      exact .cons (entry.afterReaping_isLeftOf pid status) (List.forall₂_refl after)
  | @completes before after entry _ _ =>
      exact ((List.sublist_cons_self entry after).append_left before).sublistForall₂

/-- The registry is as the events say: each entry is known by its last process and is what is left
of a job, in order; the unreaped processes are listed in the order in which they were started; and
nothing has been signalled. -/
structure Registry.Reflects (begun : Registry) (events : List ChildEvent) (jobs : Registry) :
    Prop where
  keyed : IsKeyed jobs.entries
  remain : Remain begun.entries events jobs.entries
  unreaped : unreapedOf begun.processes events = jobs.processes
  unsignalled : events.filterMap ChildEvent.signalled? = []

/-- The registry is as it should be after what has happened since a moment. -/
def Registry.Tracks (jobs : Registry) (before : Kernel) (begun : Registry) (kernel : Kernel) :
    Prop :=
  ∃ events, before.Sees events kernel ∧ begun.Reflects events jobs

section Tracking

variable {endings : Ending → Prop} {before kernel after : Kernel} {begun jobs : Registry}
variable {events : List ChildEvent}

namespace Registry.Reflects

/-- What makes no difference to the unreaped processes makes none to the registry. -/
theorem further (reflects : begun.Reflects events jobs) {added : List ChildEvent}
    (same : unreapedOf begun.processes (events ++ added) = unreapedOf begun.processes events)
    (quiet : added.filterMap ChildEvent.signalled? = []) :
    begun.Reflects (events ++ added) jobs where
  keyed := reflects.keyed
  remain := reflects.remain.further added
  unreaped := same.trans reflects.unreaped
  unsignalled := by rw [List.filterMap_append, reflects.unsignalled, quiet, List.append_nil]

/-- A job all of whose processes have been reaped is listed no longer. -/
theorem takes (reflects : begun.Reflects events jobs) {entry : Entry} {earlier later : List Entry}
    (split : jobs.entries = earlier ++ entry :: later) :
    begun.Reflects (events ++ entry.processes.map .reaped)
      { jobs with entries := earlier ++ later } where
  keyed := by
    apply reflects.keyed.sublist
    rw [split]
    exact (List.sublist_cons_self entry later).append_left earlier
  remain := by
    apply (reflects.remain.loses _).further
    rw [split]
    exact ((List.sublist_cons_self entry later).append_left earlier).sublistForall₂
  unreaped := by
    have distinct := reflects.keyed.distinct
    rw [unreapedOf_append, reflects.unreaped]
    unfold Registry.processes
    rw [split, List.flatMap_append, List.flatMap_cons] at distinct ⊢
    rw [unreapedOf_reaped_between _ _ _ distinct, List.flatMap_append]
  unsignalled := by
    rw [List.filterMap_append, reflects.unsignalled, signalled_reaped, List.append_nil]

end Registry.Reflects

namespace Registry.Tracks

private theorem of_sees (tracks : jobs.Tracks before begun kernel)
    (seen : ∀ events, before.Sees events kernel → before.Sees events after) :
    jobs.Tracks before begun after := by
  obtain ⟨events, sees, reflects⟩ := tracks
  exact ⟨events, seen events sees, reflects⟩

/-- A plain program leaves the registry as right as it was. -/
theorem plain {α : Type} {program : Program α} {good : α → Prop}
    (tracks : jobs.Tracks before begun kernel)
    (within : program.Within (fun call => call.isPlain = true) good) :
    (Kernel.attending endings before begun).Ensures (fun _ _ => True) program
      (fun result after => good result ∧ jobs.Tracks before begun after) kernel := by
  obtain ⟨events, sees, reflects⟩ := tracks
  refine (within.sees sees).granted.anyCall.mono ?_
  exact fun result after ⟨fine, seen⟩ => ⟨fine, events, seen, reflects⟩

/-- A call that is not about children leaves it as right, too. -/
theorem of_answers (tracks : jobs.Tracks before begun kernel) {asked : Kernel} {call : Call}
    {given : call.Answer} (drifts : (Kernel.world endings).Drifts kernel asked)
    (answers : (Kernel.world endings).answers call asked given after)
    (silent : Answered.childEvent? ⟨call, given⟩ = none) : jobs.Tracks before begun after := by
  apply tracks.of_sees
  intro events sees
  have seen := (sees.of_drifts drifts).of_answers answers
  rw [silent] at seen
  simpa using seen

/-- What was started and is reaped again makes no difference. -/
theorem of_restores (tracks : jobs.Tracks before begun kernel)
    (restores : ∀ events, before.Sees events kernel →
      before.Restores begun.processes events after) :
    jobs.Tracks before begun after := by
  obtain ⟨events, sees, reflects⟩ := tracks
  obtain ⟨added, seen, same, quiet⟩ := restores events sees
  exact ⟨events ++ added, seen, reflects.further same quiet⟩

end Registry.Tracks

/-! ## Reaping -/

/-- A process of one entry is not one of the others. -/
theorem filter_processes_around {entry : Entry} {earlier later : List Entry} {pid : Pid}
    (member : pid ∈ entry.processes)
    (distinct : ((earlier ++ entry :: later).flatMap Entry.processes).Nodup) :
    (((earlier ++ entry :: later).flatMap Entry.processes).filter fun process => process ≠ pid) =
      earlier.flatMap Entry.processes ++
        ((entry.processes.filter fun process => process ≠ pid) ++
          later.flatMap Entry.processes) := by
  rw [List.flatMap_append, List.flatMap_cons] at distinct ⊢
  apply filter_around distinct
  intro process absent
  apply decide_eq_true
  rintro rfl
  exact absent member

/-- The process that is reaped is taken out of the registry, and no other is. -/
theorem Registry.processes_markReaped (keyed : IsKeyed jobs.entries) (pid : Pid) (status : Int) :
    (jobs.markReaped pid status).2.processes =
      jobs.processes.filter fun process => process ≠ pid := by
  have distinct := keyed.distinct
  have reaps := Registry.markReaped_reaps jobs pid status
  unfold Registry.processes
  generalize (jobs.markReaped pid status).2.entries = left at reaps
  generalize (jobs.markReaped pid status).1 = completed at reaps
  generalize jobs.entries = entries at reaps distinct
  cases reaps with
  | stranger strange =>
      symm
      rw [List.filter_eq_self]
      intro process member
      obtain ⟨entry, isListed, inside⟩ := List.mem_flatMap.1 member
      have other : process ≠ pid := fun same => strange entry isListed (same ▸ inside)
      simpa using other
  | @continues earlier later entry member remaining =>
      rw [filter_processes_around member distinct, List.flatMap_append, List.flatMap_cons]
      rfl
  | @completes earlier later entry member finished =>
      rw [Entry.processes_afterReaping] at finished
      rw [filter_processes_around member distinct, finished, List.flatMap_append, List.nil_append]

theorem Registry.Reflects.markReaped (reflects : begun.Reflects events jobs) (pid : Pid)
    (status : Int) :
    begun.Reflects (events ++ [.reaped pid]) (jobs.markReaped pid status).2 where
  keyed := reflects.keyed.reaps (Registry.markReaped_reaps jobs pid status)
  remain := by
    apply Remain.further
    exact reflects.remain.loses (Registry.markReaped_reaps jobs pid status).sublistForall₂
  unreaped := by
    rw [unreapedOf_append, reflects.unreaped, Registry.processes_markReaped reflects.keyed]
    rfl
  unsignalled := by
    rw [List.filterMap_append, reflects.unsignalled]
    rfl

theorem Registry.Tracks.markReaped (tracks : jobs.Tracks before begun kernel)
    {asked : Kernel} {call : Call} {given : call.Answer} {pid : Pid} (status : Int)
    (drifts : (Kernel.world endings).Drifts kernel asked)
    (answers : (Kernel.world endings).answers call asked given after)
    (reaped : Answered.childEvent? ⟨call, given⟩ = some (.reaped pid)) :
    (jobs.markReaped pid status).2.Tracks before begun after := by
  obtain ⟨events, sees, reflects⟩ := tracks
  have seen := (sees.of_drifts drifts).of_answers answers
  rw [reaped] at seen
  exact ⟨events ++ [.reaped pid], seen, reflects.markReaped pid status⟩

private theorem lookAtChildren_tracks (looks : Nat) (tracks : jobs.Tracks before begun kernel) :
    (Kernel.attending endings before begun).Ensures (fun _ _ => True) (lookAtChildren looks)
      (fun notices after => (collect jobs notices).2.Tracks before begun after) kernel := by
  induction looks generalizing jobs kernel with
  | zero => exact tracks
  | succ looks inductionHypothesis =>
      rw [lookAtChildren, ensures_bind, ensures_ask]
      intro asked drifts
      refine ⟨trivial, fun given after answered => ?_⟩
      obtain ⟨⟨answers, -⟩, -⟩ := answered
      have event := Answered.childEvent?_look given
      cases looked : Look.ofAnswer given with
      | nothingLeft => exact tracks.of_answers drifts answers (by rw [event, looked])
      | interrupted =>
          exact inductionHypothesis (tracks.of_answers drifts answers (by rw [event, looked]))
      | found notice =>
          rw [looked] at event
          cases notice with
          | failed reason => exact tracks.of_answers drifts answers event
          | changed pid =>
              have kept := tracks.of_answers drifts answers event
              dsimp only
              rw [ensures_bind]
              exact inductionHypothesis kept
          | ended pid ending =>
              have kept := tracks.markReaped ending.status drifts answers event
              dsimp only
              rw [ensures_bind]
              exact inductionHypothesis kept

private theorem reapChildren_tracks (tracks : jobs.Tracks before begun kernel) :
    (Kernel.attending endings before begun).Ensures (fun _ _ => True) (reapChildren jobs)
      (fun result after => result.2.Tracks before begun after) kernel := by
  unfold reapChildren
  rw [ensures_bind, ensures_ask]
  intro asked drifts
  refine ⟨trivial, fun looks bounded answered => ?_⟩
  obtain ⟨⟨answers, -⟩, -⟩ := answered
  rw [ensures_bind]
  exact lookAtChildren_tracks (looks + 1) (tracks.of_answers drifts answers rfl)

end Tracking

/-! ## Sessions that go on -/

/-- The session has not been asked to end, and its registry is right. -/
structure Session.GoesOn (before : Kernel) (begun : Registry) (session : Session)
    (kernel : Kernel) : Prop where
  requested : session.exitRequested = false
  tracks : session.jobs.Tracks before begun kernel

section GoingOn

variable {endings : Ending → Prop} {before kernel : Kernel} {begun : Registry}
variable {session : Session}

/-- A session goes on after a plain program. -/
theorem Session.GoesOn.plain {α : Type} {program : Program α} {good : α → Prop}
    (goesOn : session.GoesOn before begun kernel)
    (within : program.Within (fun call => call.isPlain = true) good) :
    (Kernel.attending endings before begun).Ensures (fun _ _ => True) program
      (fun _ after => session.GoesOn before begun after) kernel := by
  refine (goesOn.tracks.plain within).mono ?_
  exact fun _ after kept => ⟨goesOn.requested, kept.2⟩

/-- A session goes on after plain steps that leave its jobs as they are. -/
theorem Session.GoesOn.keeps {activity : Activity Unit}
    (keeps : activity.Keeps (fun call => call.isPlain = true)
      (Session.HasJobs session.jobs session.exitRequested))
    (goesOn : session.GoesOn before begun kernel) :
    (Kernel.attending endings before begun).Achieves (fun _ _ => True) activity session
      (fun _ changed after => changed.GoesOn before begun after) kernel := by
  refine Ensures.mono (goesOn.tracks.plain (keeps session ⟨rfl, rfl⟩)) ?_
  intro result after kept
  obtain ⟨⟨sameJobs, sameRequest⟩, tracks⟩ := kept
  exact ⟨sameRequest.trans goesOn.requested, sameJobs ▸ tracks⟩

theorem processSignals_goesOn (goesOn : session.GoesOn before begun kernel) :
    (Kernel.attending endings before begun).Achieves (fun _ _ => True)
      Session.processSignals session
      (fun _ changed after => changed.GoesOn before begun after) kernel := by
  unfold Session.processSignals
  rw [achieves_bind, achieves_lift, ensures_run_ask]
  intro asked drifts
  refine ⟨trivial, fun taken after answered => ?_⟩
  obtain ⟨⟨answers, -⟩, -⟩ := answered
  have tracks := goesOn.tracks.of_answers drifts answers rfl
  rw [afterActivity_ok]
  cases taken with
  | false =>
      have still : session.GoesOn before begun after := ⟨goesOn.requested, tracks⟩
      exact still.keeps Session.tellShutdown_keeps
  | true =>
      dsimp only
      rw [if_pos rfl, achieves_bind, achieves_get, afterActivity_ok, achieves_bind,
        achieves_lift, ensures_run_lift]
      refine (reapChildren_tracks tracks).mono ?_
      intro result reaped right
      obtain ⟨completed, jobs⟩ := result
      rw [afterActivity_ok, achieves_bind, achieves_set, afterActivity_ok, achieves_bind,
        achieves_lift]
      refine (right.plain (Session.announceDone_isPlain completed)).mono ?_
      intro outcome told kept
      obtain ⟨-, rightTold⟩ := kept
      let reaping : Session := { session with jobs := jobs }
      have still : reaping.GoesOn before begun told := ⟨goesOn.requested, rightTold⟩
      cases outcome with
      | error stop => exact still
      | ok _ => exact still.keeps Session.tellShutdown_keeps

/-! ## Jobs taken to the foreground -/

/-- An outcome after which the run is not over. -/
def Lasts {α : Type} (outcome : Except Stop α) : Prop :=
  ∀ stop, outcome = .error stop → ∃ failure, stop = .failure failure ∧ failure.isFatal = false

private theorem not_lasts_of_fatal {α : Type} {stop : Stop} (fatal : stop.isFatal = true) :
    ¬Lasts (.error stop : Except Stop α) := by
  intro lasts
  obtain ⟨failure, rfl, harmless⟩ := lasts stop rfl
  have same : failure.isFatal = true := fatal
  rw [harmless] at same
  cases same

private theorem not_lasts_of_breach {α : Type} (breach : Breach) :
    ¬Lasts (.error (.breach breach) : Except Stop α) := by
  intro lasts
  obtain ⟨failure, same, -⟩ := lasts _ rfl
  cases same

private theorem waitForProcesses_reaps {events : List ChildEvent} (last : Option Pid)
    (known : Option Int) (pids : List Pid) (sees : before.Sees events kernel) :
    (Kernel.world endings).Ensures (fun call _ => call.isSignal = false)
      (waitForProcesses last known pids).run (HasReaped before events pids) kernel := by
  induction pids generalizing known kernel events with
  | nil => exact sees.nothingMore
  | cons pid rest inductionHypothesis =>
      rw [waitForProcesses, ensures_run_bind]
      refine (waitFor_reaps pid sees).mono ?_
      intro outcome after reached
      cases outcome with
      | error stop => exact reached
      | ok status =>
          refine (inductionHypothesis _ reached).mono ?_
          intro result last others
          cases result with
          | error stop => exact others
          | ok known => simpa [HasReaped] using others

/-- A session goes on after a job that was taken to the foreground, unless the run is over. -/
theorem bringToForeground_goesOn (goesOn : session.GoesOn before begun kernel)
    (wanted : Option Pid) :
    (Kernel.attending endings before begun).Achieves (fun _ _ => True)
      (Session.bringToForeground wanted .output) session
      (fun outcome changed after => Lasts outcome → changed.GoesOn before begun after)
      kernel := by
  unfold Session.bringToForeground
  rw [achieves_bind, achieves_get, afterActivity_ok]
  cases taken : Session.takeJob session.jobs wanted with
  | error failure => exact fun _ => goesOn
  | ok found =>
      obtain ⟨entry, jobs⟩ := found
      obtain ⟨earlier, later, split, left⟩ := Registry.takeJob_eq_ok taken
      obtain ⟨events, sees, reflects⟩ := goesOn.tracks
      dsimp only
      rw [achieves_bind, achieves_set, afterActivity_ok, achieves_bind, achieves_lift]
      refine (write_hears List.mem_cons_self fun _ _ => trivial).attended.mono ?_
      intro outcome shown written
      obtain ⟨rfl, written⟩ := written
      rw [afterActivity_ok, achieves_bind, achieves_lift]
      have waits : (Kernel.world endings).Ensures (fun call _ => call.isSignal = false)
          entry.wait.run (HasReaped before events entry.processes) shown :=
        waitForProcesses_reaps entry.lastStep entry.lastStatus entry.processes (written.sees sees)
      refine waits.granted.anyCall.mono ?_
      intro outcome after reached
      cases outcome with
      | error stop => exact fun lasts => absurd lasts (not_lasts_of_fatal reached)
      | ok status =>
          have tracks : jobs.Tracks before begun after := by
            rw [left]
            exact ⟨_, reached, reflects.takes split⟩
          have still : Session.GoesOn before begun { session with jobs := jobs } after :=
            ⟨goesOn.requested, tracks⟩
          rw [afterActivity_ok]
          cases status with
          | none => exact fun _ => still
          | some known => exact fun _ => ⟨still.requested, still.tracks⟩

/-- A job is done with when its steps could not all be launched, unless the run is over. -/
theorem Session.GoesOn.of_unlaunched {grants : (call : Call) → Kernel → call.Answer → Prop}
    {after : Kernel} {events : List ChildEvent} {steps : List Step} {stop : Stop}
    (goesOn : session.GoesOn before begun kernel) (sees : before.Sees events kernel)
    (stopped : StepsLaunched grants before begun.processes events steps (.error stop) after)
    (lasts : Lasts (.error stop : Except Stop Unit)) : session.GoesOn before begun after := by
  obtain ⟨reason, rfl⟩ | ⟨-, fatal | restores⟩ := stopped
  · exact absurd lasts (not_lasts_of_breach _)
  · exact absurd lasts (not_lasts_of_fatal fatal)
  · refine ⟨goesOn.requested, goesOn.tracks.of_restores ?_⟩
    intro others seen
    have same : others = events := seen.shown.symm.trans sees.shown
    rw [same]
    exact restores

/-! ## Jobs in the background -/

theorem Registry.Reflects.registers {jobs : Registry} {after : Kernel}
    {events launches : List ChildEvent} {told : List StartedStep} {entry : Entry}
    (reflects : begun.Reflects events jobs)
    (launched : Launched before begun.processes events launches entry.job.steps told after)
    (processes : entry.processes = told.filterMap StartedStep.pid?) (named : entry.IsNamed) :
    begun.Reflects (events ++ launches) { jobs with entries := jobs.entries ++ [entry] } := by
  have all := launched.unreaped_eq
  have distinct := launched.distinct
  rw [reflects.unreaped, ← processes] at all distinct
  constructor
  · apply reflects.keyed.append named (List.Nodup.of_append_right distinct)
    intro pid member other isListed inside
    exact List.disjoint_of_nodup_append distinct
      (List.mem_flatMap.2 ⟨other, isListed, inside⟩) member
  · exact reflects.remain.registers launched.starts (processes.trans launched.pids_eq.1)
  · rw [all]
    unfold Registry.processes
    rw [List.flatMap_append, List.flatMap_singleton]
  · rw [List.filterMap_append, reflects.unsignalled, signalled_launches launched.starts,
      List.append_nil]

private theorem Session.GoesOn.of_registers {after : Kernel} {events launches : List ChildEvent}
    {job : Job} {told : List StartedStep} {changed : Session}
    (goesOn : session.GoesOn before begun kernel) (sees : before.Sees events kernel)
    (launched : Launched before begun.processes events launches job.steps told after)
    (registers : Registers session job (told.filterMap StartedStep.pid?) changed) :
    changed.GoesOn before begun after := by
  obtain ⟨others, seen, reflects⟩ := goesOn.tracks
  obtain rfl : others = events := seen.shown.symm.trans sees.shown
  obtain ⟨none, rfl⟩ | ⟨entry, rfl, processes, named, rfl⟩ := registers
  · refine ⟨goesOn.requested, _, launched.sees, reflects.further ?_ ?_⟩
    · rw [launched.unreaped_eq, none, List.append_nil]
    · exact signalled_launches launched.starts
  · exact ⟨goesOn.requested, _, launched.sees, reflects.registers launched processes named⟩

private theorem runProgramJob_goesOn_background (goesOn : session.GoesOn before begun kernel)
    {job : Job} (background : job.background = true) :
    (Kernel.attending endings before begun).Achieves (fun _ _ => True)
      (Session.runProgramJob job) session
      (fun outcome changed after => Lasts outcome → changed.GoesOn before begun after)
      kernel := by
  obtain ⟨events, sees, reflects⟩ := goesOn.tracks
  by_cases room : session.jobs.isFull = true
  · unfold Session.runProgramJob
    rw [achieves_bind, achieves_get, afterActivity_ok, background, room, Bool.and_true,
      if_pos rfl]
    exact fun _ => goesOn
  · have notFull : session.jobs.isFull = false := by simpa using room
    refine Ensures.mono (Ensures.anyCall
      (runProgramJob_dispatches background notFull reflects.keyed reflects.unreaped sees)) ?_
    intro result after dispatched lasts
    obtain ⟨outcome, changed⟩ := result
    cases dispatched with
    | unopened seen => exact ⟨goesOn.requested, events, seen, reflects⟩
    | unlaunched stopped => exact goesOn.of_unlaunched sees stopped lasts
    | launched launched registers => exact goesOn.of_registers sees launched registers

/-! ## Jobs in the foreground -/

/-- When the steps of a job have all been launched and waited for, the registry is right again. -/
theorem Session.GoesOn.of_waited {after : Kernel} {events launches : List ChildEvent}
    {steps : List Step} {told : List StartedStep}
    (goesOn : session.GoesOn before begun kernel) (sees : before.Sees events kernel)
    (launched : Launched before begun.processes events launches steps told after) {last : Kernel}
    (reaped : before.Sees (events ++ launches ++ (runningOf told).map .reaped) last) :
    session.GoesOn before begun last := by
  refine ⟨goesOn.requested, goesOn.tracks.of_restores ?_⟩
  intro other seen
  obtain rfl : other = events := seen.shown.symm.trans sees.shown
  exact launched.restores reaped

private theorem runProgramJob_goesOn_foreground (goesOn : session.GoesOn before begun kernel)
    {job : Job} (foreground : job.background = false) :
    (Kernel.attending endings before begun).Achieves (fun _ _ => True)
      (Session.runProgramJob job) session
      (fun outcome changed after => Lasts outcome → changed.GoesOn before begun after)
      kernel := by
  obtain ⟨events, sees, reflects⟩ := goesOn.tracks
  have distinct : (unreapedOf begun.processes events).Nodup := by
    rw [reflects.unreaped]
    exact reflects.keyed.distinct
  unfold Session.runProgramJob
  rw [achieves_bind, achieves_get, afterActivity_ok, foreground, Bool.false_and,
    if_neg Bool.false_ne_true, achieves_bind, achieves_lift]
  refine ((Session.streamsOf_isPlain job).sees sees).granted.anyCall.mono ?_
  intro outcome opened reached
  obtain ⟨-, seen⟩ := reached
  have still : session.GoesOn before begun opened := ⟨goesOn.requested, events, seen, reflects⟩
  cases outcome with
  | error stop => exact fun _ => still
  | ok streams =>
      rw [afterActivity_ok, achieves_bind, achieves_lift]
      refine (startSteps_launches job streams seen distinct).anyCall.mono ?_
      intro outcome started reached
      cases outcome with
      | error stop => exact fun lasts => still.of_unlaunched seen reached lasts
      | ok told =>
          obtain ⟨launches, launched⟩ := reached
          rw [afterActivity_ok, if_neg Bool.false_ne_true, achieves_bind, achieves_lift,
            ensures_run_lift]
          refine (waitForAll_reaps told launched.sees).granted.anyCall.mono ?_
          intro waited after reaped
          obtain ⟨outcome, others⟩ := waited
          cases outcome with
          | error stop => exact fun lasts => absurd lasts (not_lasts_of_fatal reaped)
          | ok status =>
              have right := still.of_waited seen launched reaped
              cases status with
              | none => exact fun _ => right
              | some known => exact fun _ => ⟨right.requested, right.tracks⟩

/-- A session goes on after a job that is no builtin, unless the run is over. -/
theorem runProgramJob_goesOn (goesOn : session.GoesOn before begun kernel) (job : Job) :
    (Kernel.attending endings before begun).Achieves (fun _ _ => True)
      (Session.runProgramJob job) session
      (fun outcome changed after => Lasts outcome → changed.GoesOn before begun after)
      kernel := by
  by_cases background : job.background = true
  · exact runProgramJob_goesOn_background goesOn background
  · exact runProgramJob_goesOn_foreground goesOn (by simpa using background)

end GoingOn

end JobControl
