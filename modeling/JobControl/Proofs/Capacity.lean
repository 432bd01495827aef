import JobControl.Proofs.Sessions
import JobControl.Proofs.Shell
import JobControl.Proofs.Unreaped.Starting
/-!
# The limit of background jobs

A session never has more background jobs than its limit.  When the limit is reached, a job that is
to run in the background is refused before anything is done for it.  When it is not, a job of which
a step could be started is always registered: the limit is the only reason to refuse it, since its
processes have new numbers, and no process is ever stopped for want of a place.
-/

namespace JobControl

open World

/-! ## What is kept of the registry -/

/-- A registry with a limit: it has not more entries than it may have, each is known by the last of
its processes, and no process is listed twice. -/
structure Registry.IsWithin (limit : Option Nat) (jobs : Registry) : Prop where
  capacity : jobs.capacity = limit
  bounded : ∀ most, limit = some most → jobs.entries.length ≤ most
  keyed : Registry.IsKeyed jobs.entries

namespace Registry.IsWithin

variable {limit : Option Nat} {jobs : Registry} {entry : Entry}

theorem nothing (limit : Option Nat) : Registry.IsWithin limit (Registry.ofCapacity limit) where
  capacity := rfl
  bounded := by simp [Registry.ofCapacity]
  keyed := Registry.IsKeyed.nil

/-- The registry is full exactly if it has as many entries as it may have. -/
theorem isFull_iff (kept : jobs.IsWithin limit) :
    jobs.isFull = true ↔ ∃ most, limit = some most ∧ jobs.entries.length = most := by
  rw [Registry.isFull_eq_true_iff, kept.capacity]
  constructor
  · intro ⟨most, known, full⟩
    exact ⟨most, known, Nat.le_antisymm (kept.bounded most known) full⟩
  · intro ⟨most, known, full⟩
    exact ⟨most, known, Nat.le_of_eq full.symm⟩

private theorem isFull_eq_false (kept : jobs.IsWithin limit)
    (room : ∀ most, limit = some most → jobs.entries.length < most) : jobs.isFull = false := by
  by_contra full
  obtain ⟨most, known, same⟩ := kept.isFull_iff.1 (by simpa using full)
  have less := room most known
  omega

theorem fewer (kept : jobs.IsWithin limit) {left : List Entry}
    (less : left.Sublist jobs.entries) : ({ jobs with entries := left }).IsWithin limit where
  capacity := kept.capacity
  bounded := fun most known => Nat.le_trans less.length_le (kept.bounded most known)
  keyed := kept.keyed.sublist less

theorem append (kept : jobs.IsWithin limit) (room : jobs.isFull = false) (named : entry.IsNamed)
    (distinct : (jobs.processes ++ entry.processes).Nodup) :
    ({ jobs with entries := jobs.entries ++ [entry] }).IsWithin limit where
  capacity := kept.capacity
  bounded := by
    intro most known
    have notFull : jobs.entries.length ≠ most := by
      intro full
      have isFull := kept.isFull_iff.2 ⟨most, known, full⟩
      rw [room] at isFull
      cases isFull
    have bounded := kept.bounded most known
    rw [List.length_append, List.length_singleton]
    omega
  keyed := by
    apply kept.keyed.append named (List.Nodup.of_append_right distinct)
    intro pid member listed isListed inside
    exact List.disjoint_of_nodup_append distinct
      (List.mem_flatMap.2 ⟨listed, isListed, inside⟩) member

theorem markReaped (kept : jobs.IsWithin limit) (pid : Pid) (status : Int) :
    (jobs.markReaped pid status).2.IsWithin limit := by
  have reaps := Registry.markReaped_reaps jobs pid status
  refine ⟨kept.capacity, ?_, kept.keyed.reaps reaps⟩
  intro most known
  have bounded := kept.bounded most known
  have fewer : (jobs.markReaped pid status).2.entries.length ≤ jobs.entries.length := by
    generalize (jobs.markReaped pid status).2.entries = left at reaps
    generalize (jobs.markReaped pid status).1 = completed at reaps
    generalize jobs.entries = entries at reaps
    cases reaps <;> simp
  omega

theorem collect (kept : jobs.IsWithin limit) (notices : List ChildNotice) :
    (collect jobs notices).2.IsWithin limit := by
  induction notices generalizing jobs with
  | nil => exact kept
  | cons notice rest inductionHypothesis =>
      cases notice with
      | failed reason => exact kept
      | changed pid => exact inductionHypothesis kept
      | ended pid ending => exact inductionHypothesis (kept.markReaped pid ending.status)

end Registry.IsWithin

/-! ## Operations other than jobs -/

section Operations

variable {limit : Option Nat}

/-- The registry of a session is within its limit. -/
def Session.IsWithin (limit : Option Nat) (session : Session) : Prop :=
  session.jobs.IsWithin limit

private theorem reapChildren_isWithin {jobs : Registry} (kept : jobs.IsWithin limit) :
    (reapChildren jobs).Within (fun _ => True) fun result => result.2.IsWithin limit := by
  refine Program.Within.bind (Program.only_ask trivial) fun looks _ => ?_
  refine Program.Within.bind (Program.only_anything _) fun notices _ => ?_
  exact kept.collect notices

private theorem Session.processSignals_keeps :
    processSignals.Keeps (fun _ => True) (IsWithin limit) := by
  have tells : tellShutdown.Keeps (fun _ => True) (IsWithin limit) := by
    intro session held
    refine (tellShutdown_within session).mono (fun _ _ => trivial) ?_
    intro result ⟨_, same⟩
    rw [same]
    exact held
  refine Activity.Keeps.bind (Activity.keeps_lift (Action.makes_anything _)) fun taken => ?_
  cases taken with
  | false => exact tells
  | true =>
      apply Activity.Keeps.get_bind
      intro session held
      apply Activity.Keeps.lift_bind (reapChildren_isWithin held)
      intro ⟨completed, jobs⟩ kept
      have within : IsWithin limit { session with jobs := jobs } := kept
      refine Activity.Keeps.bind (Activity.keeps_set within) fun _ => ?_
      exact Activity.Keeps.bind (Activity.keeps_lift (Action.makes_anything _)) fun _ => tells

private theorem Session.bringToForeground_keeps (wanted : Option Pid) (outlet : Outlet) :
    (bringToForeground wanted outlet).Keeps (fun _ => True) (IsWithin limit) := by
  apply Activity.Keeps.get_bind
  intro session held
  cases taken : takeJob session.jobs wanted with
  | error failure => exact Activity.keeps_throw _
  | ok found =>
      obtain ⟨entry, left⟩ := found
      obtain ⟨before, after, split, rfl⟩ := Registry.takeJob_eq_ok taken
      have less : (before ++ after).Sublist session.jobs.entries := by
        rw [split]
        exact (List.sublist_cons_self entry after).append_left before
      have kept : IsWithin limit { session with
          jobs := { session.jobs with entries := before ++ after } } := held.fewer less
      refine Activity.Keeps.bind (Activity.keeps_set kept) fun _ => ?_
      refine Activity.Keeps.bind (Activity.keeps_lift (Action.makes_anything _)) fun _ => ?_
      refine Activity.Keeps.bind (Activity.keeps_lift (Action.makes_anything _)) fun status => ?_
      exact Activity.keeps_recordStatus (fun _ _ still => still) status

private theorem Session.exit_keeps (outlet : Outlet) :
    (Session.exit outlet).Keeps (fun _ => True) (IsWithin limit) := by
  apply Activity.Keeps.get_bind
  intro session held
  have kept : IsWithin limit { session with jobs := session.jobs.drain.2 } :=
    held.fewer (List.nil_sublist _)
  refine Activity.Keeps.bind (Activity.keeps_set kept) fun _ => ?_
  refine Activity.Keeps.bind (Activity.keeps_lift (Action.makes_anything _)) fun _ => ?_
  refine Activity.Keeps.bind (Activity.keeps_lift (Action.makes_anything _)) fun _ => ?_
  exact Activity.keeps_modify fun _ still => still

private theorem Builtin.run_keeps (builtin : Builtin) (arguments : List String) (outlet : Outlet) :
    (builtin.run arguments outlet).Keeps (fun _ => True) (Session.IsWithin limit) := by
  apply Builtin.run_cases (motive := fun activity =>
    activity.Keeps (fun _ => True) (Session.IsWithin limit))
  · exact fun failure => Activity.keeps_throw _
  · intro other plain operand session held
    refine (Builtin.runWith_keeps plain operand outlet session ⟨rfl, rfl⟩).mono
      (fun _ _ => trivial) ?_
    intro result kept
    obtain ⟨same, -⟩ := kept
    unfold Session.IsWithin
    rw [same]
    exact held
  · exact Session.exit_keeps outlet
  · exact fun wanted => Session.bringToForeground_keeps wanted outlet

/-! ## Jobs and lines -/

private theorem Session.runProgramJob_keeps_foreground {job : Job}
    (foreground : job.background = false) :
    (Session.runProgramJob job).Keeps (fun _ => True) (Session.IsWithin limit) := by
  unfold Session.runProgramJob
  apply Activity.Keeps.get_bind
  intro session held
  rw [foreground, Bool.false_and, if_neg Bool.false_ne_true]
  refine Activity.Keeps.bind (Activity.keeps_lift (Action.makes_anything _)) fun streams => ?_
  refine Activity.Keeps.bind (Activity.keeps_lift (Action.makes_anything _)) fun steps => ?_
  rw [if_neg Bool.false_ne_true]
  refine Activity.Keeps.bind (Activity.keeps_lift (Action.makes_anything _)) fun waited => ?_
  obtain ⟨outcome, others⟩ := waited
  cases outcome with
  | error stop => exact Activity.keeps_throw _
  | ok status => exact Activity.keeps_recordStatus (fun _ _ still => still) status

variable {endings : Ending → Prop} {session : Session} {kernel : Kernel}

/-- A job whose children get numbers that are not listed keeps the registry within its limit. -/
theorem runProgramJob_isWithin (held : session.IsWithin limit) (job : Job) :
    (Kernel.renewing endings kernel session.jobs.processes).Achieves (fun _ _ => True)
      (Session.runProgramJob job) session (fun _ changed _ => changed.IsWithin limit) kernel := by
  -- Only a job in the background is registered, and only where there is room for it.
  by_cases background : job.background = true
  · by_cases room : session.jobs.isFull = true
    · unfold Session.runProgramJob
      rw [achieves_bind, achieves_get, afterActivity_ok, background, room, Bool.and_true,
        if_pos rfl]
      exact held
    · have notFull : session.jobs.isFull = false := by simpa using room
      have dispatches : (Kernel.renewing endings kernel session.jobs.processes).Achieves
          (fun call _ => call.isSignal = false) (Session.runProgramJob job) session
          (Dispatched (fun _ _ _ => True) kernel session.jobs.processes [] session job) kernel := by
        rw [← restrict_true (Kernel.renewing endings kernel session.jobs.processes)]
        exact runProgramJob_dispatches background notFull held.keyed rfl (.nothing kernel)
      refine Ensures.mono (Ensures.anyCall dispatches) ?_
      intro ⟨outcome, changed⟩ after dispatched
      cases dispatched with
      | unopened _ => exact held
      | unlaunched _ => exact held
      | launched launched registers =>
          obtain ⟨-, rfl⟩ | ⟨entry, -, processes, named, rfl⟩ := registers
          · exact held
          · exact held.append notFull named (processes ▸ launched.distinct)
  · exact (Session.runProgramJob_keeps_foreground (by simpa using background)).achieves held kernel

private theorem runJob_isWithin (held : session.IsWithin limit) (job : Job) :
    (Kernel.renewing endings kernel session.jobs.processes).Achieves (fun _ _ => True)
      (Session.runJob job) session (fun _ changed _ => changed.IsWithin limit) kernel := by
  unfold Session.runJob
  cases Builtin.ofName? job.program with
  | some builtin => exact (Builtin.run_keeps builtin _ _).achieves held kernel
  | none => exact runProgramJob_isWithin held job

private theorem runLine_isWithin (held : session.IsWithin limit) (line : String) :
    (Kernel.renewing endings kernel session.jobs.processes).Achieves (fun _ _ => True)
      (Session.runLine line) session (fun _ changed _ => changed.IsWithin limit) kernel := by
  have parsed : (Kernel.renewing endings kernel session.jobs.processes).Achieves (fun _ _ => True)
      (Session.runParsed (Job.parse line)) session (fun _ changed _ => changed.IsWithin limit)
      kernel := by
    cases Job.parse line with
    | error stop => exact held
    | ok job =>
        cases job with
        | none => exact held
        | some job => exact runJob_isWithin held job
  apply Achieves.report parsed
  intro failure changed after _ kept
  exact ((Action.makes_anything _).result_good after).mono fun _ _ _ => kept

private theorem operation_isWithin (held : session.IsWithin limit) (operation : Operation) :
    (Kernel.renewing endings kernel session.jobs.processes).Achieves (fun _ _ => True)
      operation.activity session (fun _ changed _ => changed.IsWithin limit) kernel := by
  cases operation with
  | line text => exact runLine_isWithin held text
  | job job => exact runJob_isWithin held job
  | signals => exact Session.processSignals_keeps.achieves held kernel
  | foreground pid outlet => exact (Session.bringToForeground_keeps pid outlet).achieves held kernel
  | exit outlet => exact (Session.exit_keeps outlet).achieves held kernel

end Operations

/-! ## Sessions -/

/-- What a session with these settings may have come to between two operations, where in each
operation the numbers of new children differ from those of the processes listed before it. -/
inductive Session.Arises (endings : Ending → Prop) (settings : Settings) :
    Session → Kernel → Prop where
  | begins : Arises endings settings (Session.ofSettings settings) {}
  | stirs {session : Session} {kernel after : Kernel} :
      Arises endings settings session kernel → Kernel.Stirs endings kernel after →
      Arises endings settings session after
  | performs (operation : Operation) {session changed : Session} {kernel after : Kernel}
      {outcome : Except Stop Unit} :
      Arises endings settings session kernel →
      (Kernel.renewing endings kernel session.jobs.processes).Leads
        ⟨operation.activity.perform session, kernel⟩ ⟨.done (outcome, changed), after⟩ →
      Arises endings settings changed after

theorem Session.Arises.isWithin {endings : Ending → Prop} {settings : Settings}
    {session : Session} {kernel : Kernel} (arises : session.Arises endings settings kernel) :
    session.IsWithin settings.backgroundLimit := by
  induction arises with
  | begins => exact Registry.IsWithin.nothing settings.backgroundLimit
  | stirs _ _ inductionHypothesis => exact inductionHypothesis
  | performs operation _ leads inductionHypothesis =>
      obtain ⟨_, _, kept⟩ := Ensures.result (operation_isWithin inductionHypothesis operation) leads
      exact kept

/-! ## Background jobs -/

/-- Every pipe that is asked for is made. -/
def Kernel.GivesPipes : (call : Call) → Kernel → call.Answer → Prop
  | .makePipe _, _, given => ∃ ends, given = .ok ends
  | _, _, _ => True

/-- A job has been registered: its steps have been launched in order, each once, and behind the
entries that there were is one more, with the processes that were started. -/
def Session.HasRegistered (session : Session) (kernel : Kernel) (job : Job) (changed : Session)
    (after : Kernel) : Prop :=
  ∃ entry launches, changed.jobs.entries = session.jobs.entries ++ [entry] ∧ entry.job = job ∧
    kernel.shownUntil after Answered.childEvent? = launches ∧
    List.Forall₂ ChildEvent.Launches launches job.steps ∧
    entry.processes = launches.filterMap ChildEvent.started?

section Background

variable {endings : Ending → Prop} {limit : Option Nat} {session : Session} {kernel : Kernel}
variable {job : Job}

private theorem runJob_when_full (held : session.IsWithin limit)
    (outside : Builtin.ofName? job.program = none) (background : job.background = true)
    {most : Nat} (known : limit = some most) (full : session.jobs.entries.length = most) :
    (Session.runJob job).perform session =
      .done (.error (.failure (.tooManyBackgroundJobs most)), session) := by
  have isFull : session.jobs.isFull = true := held.isFull_iff.2 ⟨most, known, full⟩
  have capacity : session.jobs.capacity = some most := held.capacity.trans known
  unfold Session.runJob
  rw [outside]
  unfold Session.runProgramJob
  dsimp only
  rw [Activity.perform_get_bind, background, isFull, Bool.and_self, if_pos rfl, capacity]
  rfl

private theorem runJob_with_room (held : session.IsWithin limit)
    (outside : Builtin.ofName? job.program = none) (background : job.background = true)
    (room : session.jobs.isFull = false)
    (grants : (call : Call) → Kernel → call.Answer → Prop) :
    ((Kernel.renewing endings kernel session.jobs.processes).restrict grants).Ensures
      (fun call _ => call.isSignal = false) ((Session.runJob job).perform session)
      (fun result after => Dispatched grants kernel session.jobs.processes [] session job
        result.1 result.2 after) kernel := by
  unfold Session.runJob
  rw [outside]
  exact runProgramJob_dispatches background room held.keyed rfl (.nothing kernel)

private theorem hasRegistered_of_dispatched {outcome : Except Stop Unit} {changed : Session}
    {answered after : Kernel}
    (dispatched : Dispatched Kernel.GivesPipes kernel session.jobs.processes [] session job outcome
      changed answered)
    (drifts : (Kernel.world endings).Drifts answered after)
    (told : ∀ reason, outcome ≠ .error (.breach (.noticeLost .errors reason)))
    (started : (kernel.shownUntil after Answered.childEvent?).filterMap
      ChildEvent.started? ≠ []) :
    session.HasRegistered kernel job changed after := by
  cases dispatched with
  | unopened sees =>
      rw [(sees.of_drifts drifts).shown] at started
      exact absurd rfl started
  | @unlaunched stop _ stopped =>
      obtain ⟨reason, rfl⟩ | ⟨⟨asked, reason, ends, refused⟩, -⟩ := stopped
      · exact absurd rfl (told reason)
      · cases refused
  | @launched _ _ _ launches steps launched registers =>
      have shown := (launched.sees.of_drifts drifts).shown
      rw [List.nil_append] at shown
      obtain ⟨pids, -⟩ := launched.pids_eq
      obtain ⟨none, -⟩ | ⟨entry, ofJob, processes, -, rfl⟩ := registers
      · rw [shown, ← pids] at started
        exact absurd none started
      · exact ⟨entry, launches, rfl, ofJob, shown, launched.starts, processes.trans pids⟩

end Background

/-- A session never has more background jobs than its limit.  When it has as many, a job that is to
run in the background and is no builtin is refused without a call, and nothing is changed.  When it
has fewer, no process of the job is ever signalled; and if the pipes that the job needs are made
and a step of it is started, it is registered behind the others, with the processes that were
started, unless the session breaks off because a complaint about another step cannot be written. -/
theorem Session.Arises.keeps_limit {endings : Ending → Prop} {settings : Settings}
    {session : Session} {kernel : Kernel} (arises : session.Arises endings settings kernel) :
    (∀ most, settings.backgroundLimit = some most → session.jobs.entries.length ≤ most) ∧
    ∀ job : Job, Builtin.ofName? job.program = none → job.background = true →
      (∀ most, settings.backgroundLimit = some most → session.jobs.entries.length = most →
        (Session.runJob job).perform session =
          .done (.error (.failure (.tooManyBackgroundJobs most)), session)) ∧
      ((∀ most, settings.backgroundLimit = some most → session.jobs.entries.length < most) →
        (∀ pid next asked,
          ¬(Kernel.renewing endings kernel session.jobs.processes).Leads
            ⟨(Session.runJob job).perform session, kernel⟩
            ⟨.step (.sendShutdown pid) next, asked⟩) ∧
        ∀ outcome changed after,
          ((Kernel.renewing endings kernel session.jobs.processes).restrict
              Kernel.GivesPipes).Leads
            ⟨(Session.runJob job).perform session, kernel⟩
            ⟨.done (outcome, changed), after⟩ →
          (∀ reason, outcome ≠ .error (.breach (.noticeLost .errors reason))) →
          (kernel.shownUntil after Answered.childEvent?).filterMap ChildEvent.started? ≠ [] →
          session.HasRegistered kernel job changed after) := by
  have held := arises.isWithin
  refine ⟨held.bounded, fun job outside background => ⟨?_, fun fewer => ⟨?_, ?_⟩⟩⟩
  · exact fun most known full => runJob_when_full held outside background known full
  · intro pid next asked leads
    have room := held.isFull_eq_false fewer
    rw [← restrict_true (Kernel.renewing endings kernel session.jobs.processes)] at leads
    have notSignal : (Call.sendShutdown pid).isSignal = false :=
      Ensures.fits_of_leads (runJob_with_room held outside background room _) leads
    cases notSignal
  · intro outcome changed after leads told started
    have room := held.isFull_eq_false fewer
    obtain ⟨answered, drifts, dispatched⟩ := Ensures.result
      (runJob_with_room held outside background room Kernel.GivesPipes) leads
    exact hasRegistered_of_dispatched dispatched drifts told started

/-- Where one background job is allowed, one is registered and a second one is refused. -/
theorem Session.Arises.keeps_limit_of_one :
    let settings : Settings := { backgroundLimit := some 1 }
    let job : Job := { input := "sleep &", first := { program := "sleep" }, background := true }
    ∃ session kernel, session.Arises Ending.IsTold settings kernel ∧
      (Session.ofSettings settings).HasRegistered {} job session kernel ∧
      session.jobs.entries.map Entry.processes = [[⟨7⟩]] ∧
      (Session.runJob job).perform session =
        .done (.error (.failure (.tooManyBackgroundJobs 1)), session) := by
  intro settings job
  let world := (Kernel.renewing Ending.IsTold {} []).restrict Kernel.GivesPipes
  have run : ∃ session kernel,
      world.Leads ⟨(Session.runJob job).perform (Session.ofSettings settings), {}⟩
        ⟨.done (.ok (), session), kernel⟩ ∧
      session.jobs.entries.map Entry.processes = [[⟨7⟩]] ∧
      (Kernel.shownUntil {} kernel Answered.childEvent?).filterMap ChildEvent.started? = [⟨7⟩] := by
    apply Exists.intro
    apply Exists.intro
    apply And.intro
    · refine Leads.answer (.ok ⟨7⟩) ⟨⟨⟨_, ⟨by decide, rfl⟩, rfl⟩, List.not_mem_nil⟩, trivial⟩ ?_
      refine Leads.answer (⟨0⟩ : Moment) ⟨⟨⟨_, rfl, rfl⟩, trivial⟩, trivial⟩ ?_
      exact Relation.ReflTransGen.refl
    · exact ⟨rfl, rfl⟩
  obtain ⟨session, kernel, leads, processes, started⟩ := run
  have new : (Session.ofSettings settings).Arises Ending.IsTold settings {} := .begins
  have arises : session.Arises Ending.IsTold settings kernel :=
    .performs (.job job) new (Leads.of_restrict leads)
  have room : ∀ most, settings.backgroundLimit = some most →
      (Session.ofSettings settings).jobs.entries.length < most := by
    intro most known
    cases known
    exact Nat.zero_lt_one
  have registered := ((Session.Arises.keeps_limit new).2 job rfl rfl).2 room
  refine ⟨session, kernel, arises, ?_, processes, ?_⟩
  · apply registered.2 _ session kernel leads
    · intro reason broken
      cases broken
    · rw [started]
      exact List.cons_ne_nil _ _
  · apply ((Session.Arises.keeps_limit arises).2 job rfl rfl).1 1 rfl
    rw [← List.length_map Entry.processes, processes]
    rfl

end JobControl
