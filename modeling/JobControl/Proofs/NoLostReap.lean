import JobControl.Proofs.Shell
/-!
# No reap is lost

The endings of children are told by one flag, which the session takes before it looks at its
children.  Whenever it is not between the two, a child that has ended and not been collected has
its ending told by the flag; so once the session has acted on its signals and no child ended
meanwhile, every registered job still has a process that runs.
-/

namespace JobControl

open Relation World

/-! ## Waiting children -/

private theorem Turns.any_isWaiting {pid : Pid} {ending : Ending} {attempts turned : List Attempt}
    (turns : Turns (.ended pid ending) (.collected pid ending) attempts turned) :
    (attempts.any fun attempt => attempt.life.isWaiting) = true := by
  obtain ⟨attempt, known, lived⟩ := turns.exists_mem
  exact List.any_eq_true.2 ⟨attempt, known, by rw [lived]; rfl⟩

private theorem any_isWaiting_append {attempts : List Attempt} {attempt : Attempt}
    (begun : attempt.life.isWaiting = false) :
    ((attempts ++ [attempt]).any fun attempt => attempt.life.isWaiting) =
      attempts.any fun attempt => attempt.life.isWaiting := by
  simp [begun]

namespace Kernel

variable {before after : Kernel}

/-- Outside of a sweep an ended child that has not been collected is told of by the flag. -/
def Alert (kernel : Kernel) : Prop :=
  kernel.isSweeping = false → kernel.hasWaiting = true → kernel.reapWanted = true

/-- No answer makes a child wait, and none but the taking of the flag makes it be forgotten. -/
theorem hasWaiting_of_responds {call : Call} {given : call.Answer} {answered : Kernel}
    (responds : before.Responds call given answered)
    (waits : answered.hasWaiting = true) :
    before.hasWaiting = true ∧
      (call ≠ .takeFlag .childEnded → before.reapWanted = true → answered.reapWanted = true) := by
  cases responds.effect with
  | keeps _ _ => exact ⟨waits, fun _ raised => raised⟩
  | takesFlag => exact ⟨waits, fun other => absurd rfl other⟩
  | opens _ _ _ => exact ⟨waits, fun _ raised => raised⟩
  | makesPipe _ _ _ => exact ⟨waits, fun _ raised => raised⟩
  | closes _ => exact ⟨waits, fun _ raised => raised⟩
  | starts _ =>
      unfold hasWaiting enter at waits
      rw [any_isWaiting_append rfl] at waits
      exact ⟨waits, fun _ raised => raised⟩
  | refuses kept =>
      unfold hasWaiting enter at waits
      rw [any_isWaiting_append rfl] at waits
      exact ⟨waits, fun _ raised => kept raised⟩
  | collects _ _ turns => exact ⟨turns.any_isWaiting, fun _ raised => raised⟩

/-- When a look finds nothing, no child waits. -/
theorem hasWaiting_of_nothingLeft {given : Except Errno (Option (Pid × ChildChange))}
    {answered : Kernel} (responds : before.Responds .lookAtChildren given answered)
    (nothing : Look.ofAnswer given = .nothingLeft) : answered.hasWaiting = false := by
  rcases responds with ⟨pid, ending, turned, turns, rfl, rfl⟩ | ⟨none, -, rfl⟩ | ⟨rfl, -, -⟩
  · rw [look_toldOf] at nothing
    split at nothing <;> cases nothing
  · exact none
  · cases nothing

/-- What is known before an answer after which no sweep is under way and a child waits. -/
theorem calm_before {call : Call} {given : call.Answer} {answered : Kernel}
    (responds : before.Responds call given answered)
    (calm : sweeping (⟨call, given⟩ :: before.calls) = false)
    (waits : answered.hasWaiting = true) :
    before.isSweeping = false ∧
      (call = .takeFlag .childEnded → before.reapWanted = false) := by
  cases call with
  | takeFlag signal =>
      cases signal with
      | childEnded =>
          obtain ⟨taken, -⟩ := responds
          obtain ⟨untaken, earlier⟩ := Bool.or_eq_false_iff.1 calm
          exact ⟨earlier, fun _ => taken.symm.trans untaken⟩
      | shutdown => exact ⟨calm, fun equal => nomatch equal⟩
  | lookAtChildren =>
      by_cases nothing : Look.ofAnswer given = .nothingLeft
      · rw [hasWaiting_of_nothingLeft responds nothing] at waits
        cases waits
      · have same : sweeping (⟨.lookAtChildren, given⟩ :: before.calls) = before.isSweeping :=
          if_neg nothing
        exact ⟨same.symm.trans calm, fun equal => nomatch equal⟩
  | _ => exact ⟨calm, fun equal => nomatch equal⟩

theorem Alert.of_answers {endings : Ending → Prop} {call : Call} {given : call.Answer}
    (alert : before.Alert) (answers : (Kernel.world endings).answers call before given after) :
    after.Alert := by
  obtain ⟨answered, responds, rfl⟩ := answers
  intro calm waits
  obtain ⟨waited, kept⟩ := hasWaiting_of_responds responds waits
  obtain ⟨calmBefore, untaken⟩ := calm_before responds calm waits
  have raised := alert calmBefore waited
  refine kept (fun equal => ?_) raised
  rw [untaken equal] at raised
  cases raised

/-- The flag tells of every child that waits, whatever was asked and answered so far. -/
theorem alert_of_later {endings : Ending → Prop} {kernel : Kernel}
    (arising : (Kernel.world endings).Later {} kernel) : kernel.Alert := by
  induction arising with
  | refl => exact fun _ waits => nomatch waits
  | tail _ step inductionHypothesis =>
      rcases step with stirs | ⟨call, given, answers⟩
      · cases stirs with
        | childEnds _ _ => exact fun _ _ => rfl
        | alarm => exact fun _ _ => rfl
      · exact inductionHypothesis.of_answers answers

/-! ## While no child ends -/

/-- The kernel while no child ends; the flag may be raised all the same, if alarms may come. -/
def quiet (alarms : Prop) : World Kernel where
  stirs before after := alarms ∧ after = { before with reapWanted := true }
  answers := Kernel.telling.answers

/-- Outside of a sweep no child waits. -/
def Swept (kernel : Kernel) : Prop :=
  kernel.isSweeping = false → kernel.hasWaiting = false

/-- No child waits, and the flag is raised by alarms only. -/
def AtRest (alarms : Prop) (kernel : Kernel) : Prop :=
  kernel.hasWaiting = false ∧ (¬ alarms → kernel.reapWanted = false)

variable {alarms : Prop}

private theorem telling_of_quiet {α : Type} {before after : Scene Kernel α}
    (leads : (quiet alarms).Leads before after) : Kernel.telling.Leads before after := by
  refine Leads.mono ?_ ?_ leads
  · rintro kernel next ⟨-, rfl⟩
    exact Stirs.alarm
  · exact fun call kernel given next answers => answers

private theorem telling_of_drifts (drifts : (quiet alarms).Drifts before after) :
    Kernel.telling.Drifts before after := by
  refine ReflTransGen.mono ?_ _ _ drifts
  rintro kernel next ⟨-, rfl⟩
  exact Stirs.alarm

private theorem hasWaiting_of_drifts (drifts : (quiet alarms).Drifts before after) :
    after.hasWaiting = before.hasWaiting := by
  induction drifts with
  | refl => rfl
  | tail _ stirs inductionHypothesis =>
      obtain ⟨-, rfl⟩ := stirs
      exact inductionHypothesis

theorem Swept.of_answers {call : Call} {given : call.Answer} (swept : before.Swept)
    (answers : Kernel.telling.answers call before given after) : after.Swept := by
  obtain ⟨answered, responds, rfl⟩ := answers
  intro calm
  by_contra waits
  have waiting : answered.hasWaiting = true := eq_true_of_ne_false waits
  have waited := (hasWaiting_of_responds responds waiting).1
  have none := swept (calm_before responds calm waiting).1
  rw [waited] at none
  cases none

theorem Swept.ensures {α : Type} (swept : before.Swept) (program : Program α) :
    (quiet alarms).Ensures (fun _ _ => True) program (fun _ after => after.Swept) before := by
  refine ensures_of_kept ?_ ?_ program swept
  · rintro kernel next ⟨-, rfl⟩ kept
    exact kept
  · exact fun call kernel given next answers kept => kept.of_answers answers

/-- While no child ends, acting on signals leaves no child that waits. -/
theorem processSignals_sweeps {session : Session} (arising : Kernel.telling.Later {} before)
    (calm : before.isSweeping = false) :
    (quiet alarms).Ensures (fun _ _ => True) (Session.processSignals.perform session)
      (fun _ after => after.Swept) before := by
  change (quiet alarms).Ensures _ (.step (.takeFlag .childEnded) _) _ before
  intro asked drifts
  refine ⟨trivial, ?_⟩
  have later := telling_of_drifts drifts
  have alert : asked.Alert := alert_of_later (arising.trans later.later)
  have calmAsked : asked.isSweeping = false := (isSweeping_of_drifts later).trans calm
  rintro taken after ⟨answered, ⟨rfl, rfl⟩, rfl⟩
  refine Swept.ensures ?_ _
  -- If the flag was not set when it was taken, no child was waiting then.
  intro untaken
  by_contra waits
  have waiting : asked.hasWaiting = true := eq_true_of_ne_false waits
  have raised : asked.reapWanted = true := alert calmAsked waiting
  have unraised : (asked.reapWanted || sweeping asked.calls) = false := untaken
  rw [raised] at unraised
  cases unraised

/-! ## Nothing to collect -/

theorem AtRest.of_stirs (rest : before.AtRest alarms) (stirs : (quiet alarms).stirs before after) :
    after.AtRest alarms := by
  obtain ⟨alarm, rfl⟩ := stirs
  exact ⟨rest.1, fun none => absurd alarm none⟩

theorem AtRest.of_drifts (rest : before.AtRest alarms)
    (drifts : (quiet alarms).Drifts before after) : after.AtRest alarms := by
  induction drifts with
  | refl => exact rest
  | tail _ stirs kept => exact kept.of_stirs stirs

private theorem AtRest.of_plain {call : Call} {given : call.Answer} (plain : call.isPlain = true)
    (answers : (quiet alarms).answers call before given after) (rest : before.AtRest alarms) :
    after.AtRest alarms := by
  have known : Kernel.telling.answers call before given after := answers
  obtain ⟨attempts, flag⟩ := children_of_plain plain known
  unfold AtRest hasWaiting at rest ⊢
  rw [attempts, flag]
  exact rest

theorem AtRest.ensures {α : Type} {good : α → Prop} {program : Program α}
    (rest : before.AtRest alarms)
    (plain : program.Within (fun call => call.isPlain = true) good) :
    (quiet alarms).Ensures (fun _ _ => True) program
      (fun result after => good result ∧ after.AtRest alarms) before := by
  refine Program.Within.ensures ?_ (fun _ _ _ _ => trivial) ?_ plain rest
  · exact fun kernel next stirs kept => kept.of_stirs stirs
  · exact fun call kernel given next allowed answers kept => kept.of_plain allowed answers

/-- When no child waits and none ends, a look at the children finds none. -/
theorem AtRest.looks (rest : before.AtRest alarms) (looks : Nat) :
    (quiet alarms).Ensures (fun _ _ => True) (lookAtChildren looks)
      (fun notices after => notices = [] ∧ after.AtRest alarms) before := by
  induction looks generalizing before with
  | zero => exact ⟨rfl, rest⟩
  | succ looks inductionHypothesis =>
      rw [lookAtChildren, ensures_bind, ensures_ask]
      intro asked drifts
      have still : asked.AtRest alarms := rest.of_drifts drifts
      refine ⟨trivial, ?_⟩
      rintro given after ⟨answered, responds, rfl⟩
      rcases responds with ⟨pid, ending, turned, turns, -, -⟩ | ⟨-, nothing, rfl⟩ | ⟨rfl, -, rfl⟩
      · have waits : asked.hasWaiting = true := turns.any_isWaiting
        rw [still.1] at waits
        cases waits
      · rw [nothing]
        exact ⟨rfl, still⟩
      · exact inductionHypothesis still

theorem AtRest.reaps (rest : before.AtRest alarms) (registry : Registry) :
    (quiet alarms).Ensures (fun _ _ => True) (reapChildren registry)
      (fun result after => result = ([], registry) ∧ after.AtRest alarms) before := by
  unfold reapChildren
  rw [ensures_bind]
  refine (rest.ensures (Program.only_ask rfl)).mono ?_
  rintro looks bounded ⟨-, still⟩
  rw [ensures_bind]
  refine (still.looks (looks + 1)).mono ?_
  rintro notices after ⟨rfl, last⟩
  exact ⟨rfl, last⟩

/-- Acting on signals changes nothing when no child waits and none ends. -/
theorem processSignals_rests {session : Session} (none : before.hasWaiting = false) :
    (quiet alarms).Achieves (fun _ _ => True) Session.processSignals session
      (fun _ changed after => changed = session ∧ after.AtRest alarms) before := by
  have shutdown : ∀ kernel : Kernel, kernel.AtRest alarms →
      (quiet alarms).Achieves (fun _ _ => True) Session.tellShutdown session
        (fun _ changed after => changed = session ∧ after.AtRest alarms) kernel := by
    intro kernel rest
    refine (rest.ensures (Session.tellShutdown_within session)).mono ?_
    exact fun result after reached => ⟨reached.1.2, reached.2⟩
  unfold Session.processSignals
  rw [achieves_bind, achieves_lift, ensures_run_ask]
  intro asked drifts
  refine ⟨trivial, ?_⟩
  rintro taken after ⟨answered, ⟨-, rfl⟩, rfl⟩
  have still : asked.hasWaiting = false := (hasWaiting_of_drifts drifts).trans none
  rw [afterActivity_ok]
  cases taken with
  | false => exact shutdown _ ⟨still, fun _ => rfl⟩
  | true =>
      dsimp only
      rw [if_pos rfl, achieves_bind, achieves_get, afterActivity_ok, achieves_bind,
        achieves_lift, ensures_run_lift]
      have untaken : AtRest alarms
          { asked with
            reapWanted := false
            calls := ⟨.takeFlag .childEnded, true⟩ :: asked.calls } :=
        ⟨still, fun _ => rfl⟩
      refine Ensures.mono (untaken.reaps session.jobs) ?_
      rintro ⟨completed, jobs⟩ reaped ⟨equal, last⟩
      obtain ⟨rfl, rfl⟩ := Prod.mk.inj equal
      rw [afterActivity_ok, achieves_bind, achieves_set, afterActivity_ok, achieves_bind]
      exact shutdown reaped last

end Kernel

/-! ## Shells -/

/-- A state of a shell from which the ending of no child is lost. -/
structure Shell.LosesNoReap (shell : Shell) : Prop where
  /-- There is a sweep only while the session acts on signals. -/
  sweeping : shell.kernel.isSweeping = true → ∃ rest, shell.phase = .busy .signals rest
  /-- Outside of a sweep the flag tells of every child that waits. -/
  flagged : shell.kernel.isSweeping = false → shell.kernel.hasWaiting = true →
    shell.kernel.reapWanted = true
  /-- When the session has acted on signals and no child ended meanwhile, a process of each
  registered job still runs. -/
  running : ∀ session, shell.phase = .idle session → ∀ alarms outcome changed after,
    (Kernel.quiet alarms).Leads ⟨Session.processSignals.perform session, shell.kernel⟩
      ⟨.done (outcome, changed), after⟩ →
    ∀ entry ∈ changed.jobs.entries, ∃ pid ∈ entry.processes,
      ∃ attempt ∈ after.attempts, attempt.life = .running pid
  /-- When no child waits and none ends meanwhile, acting on signals changes nothing, and but for
  alarms the flag is clear then. -/
  unchanged : ∀ session, shell.phase = .idle session → shell.kernel.hasWaiting = false →
    ∀ alarms outcome changed after,
    (Kernel.quiet alarms).Leads ⟨Session.processSignals.perform session, shell.kernel⟩
      ⟨.done (outcome, changed), after⟩ →
    changed = session ∧ (¬ alarms → after.reapWanted = false)

/-- A registered job in custody has a process that runs when no child waits. -/
theorem Registry.InCustody.exists_running {registry : Registry} {kernel : Kernel}
    {accounts : List Account} (held : registry.InCustody kernel.attempts accounts)
    (none : kernel.hasWaiting = false) {entry : Entry} (listed : entry ∈ registry.entries) :
    ∃ pid ∈ entry.processes, ∃ attempt ∈ kernel.attempts, attempt.life = .running pid := by
  rw [held.lists, mem_entriesOf] at listed
  obtain ⟨account, known, isOpen, rfl⟩ := listed
  have nonempty : account.entry.processes ≠ [] := by
    simpa [Account.isOpen] using isOpen
  obtain ⟨pid, member⟩ := List.exists_mem_of_ne_nil _ nonempty
  obtain ⟨attempt, inside, lives, -⟩ :=
    (held.custody.follows account known).exists_attempt member
  have there : attempt ∈ kernel.attempts := (Kernel.slice_sublist _ _ _).subset inside
  have notWaiting : attempt.life.isWaiting = false := by
    have all := List.any_eq_false.1 none attempt there
    exact eq_false_of_ne_true all
  refine ⟨pid, member, attempt, there, ?_⟩
  cases lived : attempt.life with
  | running other =>
      rw [lived] at lives
      obtain rfl := Option.some.inj lives
      rfl
  | ended other ending =>
      rw [lived] at notWaiting
      cases notWaiting
  | refused fault =>
      rw [lived] at lives
      cases lives
  | collected other ending =>
      rw [lived] at lives
      cases lives

theorem Shell.losesNoReap_of_reachable {settings : Settings} {shell : Shell}
    (reachable : Shell.Reachable Kernel.telling settings shell) : shell.LosesNoReap := by
  have sound := Shell.Sound.of_reachable reachable
  have arising : Kernel.telling.Later {} shell.kernel := Shell.Runs.later reachable
  obtain ⟨phase, kernel⟩ := shell
  refine ⟨?_, Kernel.alert_of_later arising, ?_, ?_⟩
  · intro swept
    cases phase with
    | idle session =>
        have calm : kernel.isSweeping = false := sound.2
        rw [calm] at swept
        cases swept
    | busy operation rest =>
        by_cases signals : operation = .signals
        · exact ⟨rest, by rw [signals]⟩
        · have calm : kernel.isSweeping = false := sound.1 signals
          rw [calm] at swept
          cases swept
  · rintro session rfl alarms outcome changed after leads entry listed
    obtain ⟨⟨accounts, -, held⟩, calm⟩ := sound
    obtain ⟨answered, drifts, ⟨-, later, -, inCustody⟩, calmAfter⟩ :=
      Ensures.result (processSignals_upholds held calm) (Kernel.telling_of_quiet leads)
    obtain ⟨collected, quietDrifts, swept⟩ :=
      Ensures.result (Kernel.processSignals_sweeps arising calm) leads
    have calmLast : after.isSweeping = false :=
      (Kernel.isSweeping_of_drifts drifts).trans calmAfter
    have calmCollected : collected.isSweeping = false :=
      (Kernel.isSweeping_of_drifts (Kernel.telling_of_drifts quietDrifts)).symm.trans calmLast
    have none : after.hasWaiting = false :=
      (Kernel.hasWaiting_of_drifts quietDrifts).trans (swept calmCollected)
    have heldLast : changed.jobs.InCustody after.attempts later :=
      ⟨inCustody.custody.of_drifts drifts, inCustody.lists⟩
    exact heldLast.exists_running none listed
  · rintro session rfl none alarms outcome changed after leads
    obtain ⟨answered, drifts, same, rest⟩ :=
      Ensures.result (Kernel.processSignals_rests none) leads
    exact ⟨same, (rest.of_drifts drifts).2⟩

/-- A shell with a background job one of whose two processes has ended: acting on signals collects
that one, and the job stays registered. -/
theorem Shell.losesNoReap_while_waiting :
    ∃ session kernel, Shell.Reachable Kernel.telling {} ⟨.idle session, kernel⟩ ∧
      kernel.hasWaiting = true ∧ Shell.LosesNoReap ⟨.idle session, kernel⟩ ∧
      ∃ changed after,
        (Kernel.quiet False).Leads ⟨Session.processSignals.perform session, kernel⟩
          ⟨.done (.ok (), changed), after⟩ ∧
        changed.jobs.entries ≠ [] ∧ after.reapWanted = false := by
  let job : Job :=
    { input := "yes | head &"
      first := { program := "yes" }
      rest := [{ program := "head" }]
      background := true }
  have told : Ending.IsTold (.killed 13) := rfl
  have ended : ∃ session kernel,
      Shell.Reachable Kernel.telling {} ⟨.idle session, kernel⟩ ∧ kernel.hasWaiting = true ∧
        ∃ changed after,
          (Kernel.quiet False).Leads ⟨Session.processSignals.perform session, kernel⟩
            ⟨.done (.ok (), changed), after⟩ ∧
          changed.jobs.entries ≠ [] ∧ after.reapWanted = false := by
    apply Exists.intro
    apply Exists.intro
    refine ⟨?_, ?_, ?_⟩
    · apply ReflTransGen.tail
      · apply Shell.Runs.perform ReflTransGen.refl (.job job) trivial
        refine Leads.answer (.ok (⟨3⟩, ⟨4⟩)) ⟨_, ⟨rfl, rfl, by decide, rfl⟩, rfl⟩ ?_
        refine Leads.answer (.ok ⟨10⟩) ⟨_, ⟨by decide, rfl⟩, rfl⟩ ?_
        refine Leads.answer () ⟨_, rfl, rfl⟩ ?_
        refine Leads.answer (.ok ⟨11⟩) ⟨_, ⟨by decide, rfl⟩, rfl⟩ ?_
        refine Leads.answer () ⟨_, rfl, rfl⟩ ?_
        refine Leads.answer (⟨0⟩ : Moment) ⟨_, rfl, rfl⟩ ?_
        exact ReflTransGen.refl
      · exact Shell.Step.stirs (Kernel.Stirs.childEnds told (Turns.here rfl))
    · rfl
    · apply Exists.intro
      apply Exists.intro
      refine ⟨?_, ?_, ?_⟩
      · refine Leads.answer true ⟨_, ⟨rfl, rfl⟩, rfl⟩ ?_
        refine Leads.answer (2 : Nat) ⟨_, ⟨0, by decide, rfl⟩, rfl⟩ ?_
        refine Leads.answer (.ok (some (⟨10⟩, .ended (.killed 13))))
          ⟨_, Or.inl ⟨_, _, _, Turns.here rfl, rfl, rfl⟩, rfl⟩ ?_
        refine Leads.answer (.ok none) ⟨_, Or.inr (Or.inl ⟨by decide, rfl, rfl⟩), rfl⟩ ?_
        refine Leads.answer false ⟨_, rfl, rfl⟩ ?_
        exact ReflTransGen.refl
      · exact List.cons_ne_nil _ _
      · rfl
  obtain ⟨session, kernel, reachable, waits, quiet⟩ := ended
  exact ⟨session, kernel, reachable, waits, Shell.losesNoReap_of_reachable reachable, quiet⟩

end JobControl
