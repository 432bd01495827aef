import JobControl.Proofs.Records
import JobControl.Proofs.Registry
/-!
# Unreaped processes

What is done about the children of a session shows in the calls that the kernel has answered: they
are launched, reaped and sent the shutdown signal.  From a moment on the unreaped processes are
those that were listed then and those started since, in the order in which they were started, but
for those reaped since.  As long as new children have new numbers, none is among them twice.
-/

namespace JobControl

open Relation World

/-! ## Events -/

/-- Something that is done about a child. -/
inductive ChildEvent where
  | launched (launch : Launch) (given : Except AccessFault Pid)
  | reaped (pid : Pid)
  | signalled (pid : Pid)

namespace ChildEvent

/-- The process that a launch has started. -/
def started? : ChildEvent → Option Pid
  | .launched _ (.ok pid) => some pid
  | _ => none

/-- The process that was sent the shutdown signal. -/
def signalled? : ChildEvent → Option Pid
  | .signalled pid => some pid
  | _ => none

/-- Whether it is a launch of the program of a step. -/
def Launches (event : ChildEvent) (step : Step) : Prop :=
  ∃ launch given, event = .launched launch given ∧
    launch.program = step.program ∧ launch.arguments = step.arguments

/-- The unreaped processes after an event. -/
def update (unreaped : List Pid) : ChildEvent → List Pid
  | .launched _ (.ok pid) => unreaped ++ [pid]
  | .reaped pid => unreaped.filter fun process => process ≠ pid
  | _ => unreaped

end ChildEvent

/-- The processes that are unreaped after some events, of those that were listed before and those
that were started by the events. -/
def unreapedOf (listed : List Pid) (events : List ChildEvent) : List Pid :=
  events.foldl ChildEvent.update listed

section Unreaped

variable {listed : List Pid} {events added : List ChildEvent}

theorem unreapedOf_append :
    unreapedOf listed (events ++ added) = unreapedOf (unreapedOf listed events) added :=
  List.foldl_append

/-- A process that is unreaped stays so until it is reaped. -/
theorem mem_unreapedOf_of_mem {pid : Pid} (member : pid ∈ listed) :
    pid ∈ unreapedOf listed events ∨ ChildEvent.reaped pid ∈ events := by
  induction events generalizing listed with
  | nil => exact Or.inl member
  | cons event rest inductionHypothesis =>
      have kept : pid ∈ event.update listed ∨ event = .reaped pid := by
        cases event with
        | launched launch given => cases given <;> simp [ChildEvent.update, member]
        | reaped other =>
            by_cases same : other = pid
            · exact Or.inr (same ▸ rfl)
            · exact Or.inl (by simpa [ChildEvent.update, member] using Ne.symm same)
        | signalled other => exact Or.inl member
      obtain still | rfl := kept
      · exact (inductionHypothesis still).imp_right (List.mem_cons_of_mem event)
      · exact Or.inr List.mem_cons_self

/-- A process that has been started is unreaped until it is reaped. -/
theorem mem_unreapedOf_of_started {pid : Pid}
    (started : pid ∈ events.filterMap ChildEvent.started?) :
    pid ∈ unreapedOf listed events ∨ ChildEvent.reaped pid ∈ events := by
  obtain ⟨event, member, known⟩ := List.mem_filterMap.1 started
  obtain ⟨earlier, later, rfl⟩ := List.append_of_mem member
  have entered : pid ∈ event.update (unreapedOf listed earlier) := by
    cases event with
    | launched launch given =>
        cases given with
        | ok other =>
            cases known
            exact List.mem_append_right _ List.mem_cons_self
        | error fault => cases known
    | reaped other => cases known
    | signalled other => cases known
  have split : unreapedOf listed (earlier ++ event :: later) =
      unreapedOf (event.update (unreapedOf listed earlier)) later := unreapedOf_append
  rw [split]
  apply (mem_unreapedOf_of_mem entered).imp_right
  intro reaped
  exact List.mem_append_right earlier (List.mem_cons_of_mem event reaped)

/-- Launches add the processes that they start. -/
theorem unreapedOf_launches {steps : List Step}
    (launches : List.Forall₂ ChildEvent.Launches events steps) :
    unreapedOf listed events = listed ++ events.filterMap ChildEvent.started? := by
  induction launches generalizing listed with
  | nil => simp [unreapedOf]
  | cons first others inductionHypothesis =>
      obtain ⟨launch, given, rfl, -, -⟩ := first
      unfold unreapedOf at inductionHypothesis ⊢
      rw [List.foldl_cons, inductionHypothesis]
      cases given with
      | ok pid => simp [ChildEvent.update, ChildEvent.started?]
      | error fault => simp [ChildEvent.update, ChildEvent.started?, List.filterMap_cons]

theorem signalled_launches {steps : List Step}
    (launches : List.Forall₂ ChildEvent.Launches events steps) :
    events.filterMap ChildEvent.signalled? = [] := by
  induction launches with
  | nil => rfl
  | cons first others inductionHypothesis =>
      obtain ⟨launch, given, rfl, -, -⟩ := first
      simpa [ChildEvent.signalled?] using inductionHypothesis

/-- Reaping takes out the processes that are reaped. -/
theorem unreapedOf_reaped (pids : List Pid) :
    unreapedOf listed (pids.map .reaped) = listed.filter fun process => process ∉ pids := by
  induction pids generalizing listed with
  | nil => simp [unreapedOf]
  | cons pid rest inductionHypothesis =>
      unfold unreapedOf at inductionHypothesis ⊢
      rw [List.map_cons, List.foldl_cons, inductionHypothesis, ChildEvent.update,
        List.filter_filter]
      apply List.filter_congr
      intro process member
      simp [Bool.and_comm]

/-- Where no process is listed twice, what is taken out of some of them leaves those before and
after them. -/
theorem filter_around {before middle after : List Pid} {keep : Pid → Bool}
    (distinct : (before ++ (middle ++ after)).Nodup)
    (outside : ∀ process, process ∉ middle → keep process = true) :
    (before ++ (middle ++ after)).filter keep = before ++ (middle.filter keep ++ after) := by
  obtain ⟨-, inner, apart⟩ := List.nodup_append.1 distinct
  have front : before.filter keep = before := by
    rw [List.filter_eq_self]
    intro process known
    apply outside
    exact fun member => apart process known process (List.mem_append_left _ member) rfl
  have back : after.filter keep = after := by
    rw [List.filter_eq_self]
    intro process known
    apply outside
    exact fun member => (List.nodup_append.1 inner).2.2 process member process known rfl
  rw [List.filter_append, List.filter_append, front, back]

/-- When some processes are reaped, those before and after them are left. -/
theorem unreapedOf_reaped_between (before pids after : List Pid)
    (distinct : (before ++ (pids ++ after)).Nodup) :
    unreapedOf (before ++ (pids ++ after)) (pids.map .reaped) = before ++ after := by
  have gone : (pids.filter fun process => process ∉ pids) = [] := by simp
  rw [unreapedOf_reaped, filter_around distinct fun process absent => decide_eq_true absent, gone,
    List.nil_append]

theorem unreapedOf_reaped_append {before pids : List Pid} (distinct : (before ++ pids).Nodup) :
    unreapedOf (before ++ pids) (pids.map .reaped) = before := by
  simpa using unreapedOf_reaped_between before pids [] (by simpa using distinct)

theorem signalled_reaped (pids : List Pid) :
    (pids.map ChildEvent.reaped).filterMap ChildEvent.signalled? = [] := by
  simp [ChildEvent.signalled?]

/-- Signals reap nothing. -/
theorem unreapedOf_signalled (pids : List Pid) :
    unreapedOf listed (pids.map .signalled) = listed := by
  induction pids with
  | nil => rfl
  | cons pid rest inductionHypothesis => exact inductionHypothesis

theorem signalled_signalled (pids : List Pid) :
    (pids.map ChildEvent.signalled).filterMap ChildEvent.signalled? = pids := by
  simp [List.filterMap_map, ChildEvent.signalled?, Function.comp_def]

end Unreaped

/-! ## Calls about children -/

/-- What a call and its answer say about a child. -/
def Answered.childEvent? : Answered → Option ChildEvent
  | ⟨.launch launch, given⟩ => some (.launched launch given)
  | ⟨.sendShutdown pid, _⟩ => some (.signalled pid)
  | answered => answered.collected?.map .reaped

theorem Answered.childEvent?_wait (pid : Pid) (given : Except Errno ChildChange) :
    Answered.childEvent? ⟨.wait pid, given⟩ =
      (Answered.collected? ⟨.wait pid, given⟩).map .reaped :=
  rfl

/-- Only a look that finds a child that ended tells that a child has been reaped. -/
theorem Answered.childEvent?_look (given : Except Errno (Option (Pid × ChildChange))) :
    Answered.childEvent? ⟨.lookAtChildren, given⟩ =
      match Look.ofAnswer given with
      | .found (.ended pid _) => some (.reaped pid)
      | _ => none := by
  rcases given with reason | _ | ⟨pid, change⟩
  · cases reason <;> rfl
  · rfl
  · cases change <;> rfl

private theorem Call.eventless_of_plain {call : Call} (plain : call.isPlain = true) :
    call.HiddenFrom Answered.childEvent? := by
  intro given
  cases call with
  | takeFlag signal => cases signal <;> rfl
  | launch launch => cases plain
  | wait pid => cases plain
  | lookAtChildren => cases plain
  | sendShutdown pid => cases plain
  | _ => rfl

/-- Whether a call sends the shutdown signal. -/
def Call.isSignal : Call → Bool
  | .sendShutdown _ => true
  | _ => false

/-- Since a moment these events have happened, in this order. -/
structure Kernel.Sees (before : Kernel) (events : List ChildEvent) (after : Kernel) : Prop where
  later : (Kernel.world fun _ => True).Later before after
  record : after.record Answered.childEvent? = before.record Answered.childEvent? ++ events

/-- What may follow where only some endings occur may follow where all do. -/
theorem Kernel.later_of_endings {endings : Ending → Prop} {before after : Kernel}
    (later : (Kernel.world endings).Later before after) :
    (Kernel.world fun _ => True).Later before after := by
  refine ReflTransGen.mono ?_ _ _ later
  intro state next step
  obtain stirs | answered := step
  · cases stirs with
    | childEnds _ turns => exact Or.inl (.childEnds trivial turns)
    | alarm => exact Or.inl .alarm
  · exact Or.inr answered

namespace Kernel.Sees

variable {endings : Ending → Prop} {before kernel after : Kernel} {events added : List ChildEvent}

theorem nothing (before : Kernel) : before.Sees [] before :=
  ⟨ReflTransGen.refl, (List.append_nil _).symm⟩

theorem nothingMore (sees : before.Sees events kernel) : before.Sees (events ++ []) kernel := by
  rw [List.append_nil]
  exact sees

theorem shown (sees : before.Sees events kernel) :
    before.shownUntil kernel Answered.childEvent? = events :=
  Kernel.shownUntil_of_append sees.record

theorem of_record (sees : before.Sees events kernel)
    (later : (Kernel.world endings).Later kernel after)
    (same : after.record Answered.childEvent? = kernel.record Answered.childEvent?) :
    before.Sees events after :=
  ⟨sees.later.trans (Kernel.later_of_endings later), same.trans sees.record⟩

theorem of_drifts (sees : before.Sees events kernel)
    (drifts : (Kernel.world endings).Drifts kernel after) : before.Sees events after :=
  sees.of_record (Drifts.later drifts) (Kernel.record_of_drifts drifts)

theorem of_answers (sees : before.Sees events kernel) {call : Call} {given : call.Answer}
    (answers : (Kernel.world endings).answers call kernel given after) :
    before.Sees (events ++ (Answered.childEvent? ⟨call, given⟩).toList) after := by
  have later : (Kernel.world endings).Later kernel after :=
    ReflTransGen.single (Or.inr ⟨call, given, answers⟩)
  refine ⟨sees.later.trans (Kernel.later_of_endings later), ?_⟩
  rw [Kernel.record_of_answers answers, sees.record, List.append_assoc]

/-- What has been shown at an earlier state of a run is shown at its end. -/
theorem shownUntil_append {β : Type} {view : Answered → Option β} {shown : List β}
    (sees : before.Sees events kernel)
    (record : after.record view = kernel.record view ++ shown) :
    before.shownUntil after view = before.shownUntil kernel view ++ shown := by
  obtain ⟨early, known⟩ : before.record view <+: kernel.record view :=
    Kernel.record_prefix_of_later sees.later
  rw [Kernel.shownUntil_of_append known.symm]
  apply Kernel.shownUntil_of_append
  rw [record, ← known, List.append_assoc]

end Kernel.Sees

/-- A plain program does nothing about children. -/
theorem Program.Within.sees {α : Type} {endings : Ending → Prop} {before kernel : Kernel}
    {events : List ChildEvent} {good : α → Prop} {program : Program α}
    (plain : program.Within (fun call => call.isPlain = true) good)
    (sees : before.Sees events kernel) :
    (Kernel.world endings).Ensures (fun call _ => call.isSignal = false) program
      (fun result after => good result ∧ before.Sees events after) kernel := by
  have quiet : ∀ call : Call, call.isPlain = true → call.isSignal = false := by
    intro call plainCall
    cases call <;> first | rfl | cases plainCall
  have hidden := plain.mono (fun call => Call.eventless_of_plain) fun _ tame => tame
  have fitting : (Kernel.world endings).Ensures (fun call _ => call.isSignal = false) program
      (fun result _ => good result) kernel := plain.fits (fun call _ => quiet call) kernel
  have follows := (hidden.record_eq endings kernel).and (ensures_later program kernel)
  refine (fitting.and follows).mono ?_
  intro result after reached
  obtain ⟨fine, ⟨-, same⟩, later⟩ := reached
  exact ⟨fine, sees.of_record later same⟩

/-! ## New numbers -/

/-- The number of a new child is not that of an unreaped process. -/
def Kernel.Renews (before : Kernel) (listed : List Pid) :
    (call : Call) → Kernel → call.Answer → Prop
  | .launch _, asked, .ok pid =>
      pid ∉ unreapedOf listed (before.shownUntil asked Answered.childEvent?)
  | _, _, _ => True

/-- The kernel that gives new children such numbers, where some processes are listed at a moment. -/
abbrev Kernel.renewing (endings : Ending → Prop) (before : Kernel) (listed : List Pid) :
    World Kernel :=
  (Kernel.world endings).restrict (before.Renews listed)

end JobControl
