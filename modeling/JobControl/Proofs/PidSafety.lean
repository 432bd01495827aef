import JobControl.Proofs.Shell
/-!
# Processes are named safely

In every state that a shell can reach, the processes of the registered jobs are children that have
not been collected, and each of them belongs to one job.  So the session waits for and signals only
children that are still its own, no wait fails, and no child is collected twice.
-/

namespace JobControl

open Relation World

/-! ## Collections -/

/-- The children that have been collected, in the order of their attempts. -/
def collectedOf (attempts : List Attempt) : List Pid :=
  attempts.filterMap fun attempt => attempt.life.collected?

/-- The collections that answers have told of, the latest first. -/
def Kernel.collections (kernel : Kernel) : List Pid :=
  kernel.calls.filterMap Answered.collected?

private theorem Turns.collected_perm {pid : Pid} {ending : Ending} {attempts turned : List Attempt}
    (turns : Turns (.ended pid ending) (.collected pid ending) attempts turned) :
    (collectedOf turned).Perm (pid :: collectedOf attempts) := by
  induction turns with
  | here lived =>
      simp [collectedOf, lived, Life.collected?]
  | @later attempt rest turned _ inductionHypothesis =>
      cases lived : attempt.life.collected? with
      | none =>
          simpa [collectedOf, lived] using inductionHypothesis
      | some other =>
          simp only [collectedOf, List.filterMap_cons, lived] at inductionHypothesis ⊢
          exact (inductionHypothesis.cons other).trans (List.Perm.swap pid other _)

/-- Each answer that tells of a collection collects one child of the table. -/
theorem Kernel.collections_step {before after : Kernel} {call : Call} {given : call.Answer}
    (orderly : Orderly Ending.IsTold before.attempts)
    (balanced : before.collections.Perm (collectedOf before.attempts))
    (answers : Kernel.telling.answers call before given after) :
    after.collections.Perm (collectedOf after.attempts) := by
  obtain ⟨answered, responds, rfl⟩ := answers
  have entered : ∀ launch (life : Life), life.collected? = none →
      collectedOf before.attempts = collectedOf (before.enter launch life).attempts := by
    intro launch life none
    simp [collectedOf, Kernel.enter, none]
  unfold Kernel.collections at balanced ⊢
  rw [List.filterMap_cons]
  cases responds.effect with
  | keeps _ nothing =>
      rw [nothing]
      exact balanced
  | takesFlag => exact balanced
  | opens _ _ nothing =>
      rw [nothing]
      exact balanced
  | makesPipe _ _ _ => exact balanced
  | closes _ => exact balanced
  | @starts launch pid _ => exact balanced.trans (.of_eq (entered launch (.running pid) rfl))
  | @refuses launch fault _ _ => exact balanced.trans (.of_eq (entered launch (.refused fault) rfl))
  | @collects _ pid ending turned _ tells turns =>
      -- The ending is one that can be told, since only such endings occur.
      obtain ⟨attempt, known, lived⟩ := turns.exists_mem
      rw [tells (orderly.endings attempt known pid ending lived)]
      exact (balanced.cons pid).trans turns.collected_perm.symm

private theorem Kernel.collections_perm {kernel : Kernel}
    (arising : Kernel.telling.Later {} kernel) :
    kernel.collections.Perm (collectedOf kernel.attempts) := by
  induction arising with
  | refl => exact List.Perm.refl _
  | @tail before after earlier step inductionHypothesis =>
      rcases step with stirs | ⟨call, given, answers⟩
      · cases stirs with
        | childEnds _ turns =>
            change (Kernel.collections before).Perm _
            unfold collectedOf
            rw [turns.filterMap_eq Life.collected? rfl]
            exact inductionHypothesis
        | alarm => exact inductionHypothesis
      · exact Kernel.collections_step (Orderly.of_later Orderly.nil earlier) inductionHypothesis
          answers

/-! ## Safety -/

/-- A state of a shell in which processes are named safely. -/
structure Shell.PidSafe (shell : Shell) : Prop where
  /-- A process of a registered job is a child started for a step of it and not collected. -/
  registered : ∀ session, shell.phase = .idle session → ∀ entry ∈ session.jobs.entries,
    ∀ pid ∈ entry.processes, ∃ attempt ∈ shell.kernel.attempts,
      attempt.life.uncollected? = some pid ∧ ∃ step ∈ entry.job.steps, attempt.Runs step
  /-- No process is listed twice, in one entry or in two. -/
  once : ∀ session, shell.phase = .idle session →
    (session.jobs.entries.flatMap Entry.processes).Nodup
  /-- The child that is waited for or signalled next has not been collected. -/
  named : ∀ operation call next, shell.phase = .busy operation (.step call next) →
    call.NamesUncollected shell.kernel
  /-- No operation ends with a failed wait. -/
  tame : ∀ operation outcome session, shell.phase = .busy operation (.done (outcome, session)) →
    ∀ pid, outcome ≠ .error (.failure (.waitFailed pid))
  /-- As often as a process was collected, so many children of its number have been. -/
  collected : shell.kernel.collections.Perm (collectedOf shell.kernel.attempts)
  /-- No two children that have not been collected have the same number. -/
  distinct : shell.kernel.uncollected.Nodup

theorem Shell.pidSafe_of_reachable {settings : Settings} {shell : Shell}
    (reachable : Shell.Reachable Kernel.telling settings shell) : shell.PidSafe := by
  have sound := Shell.Sound.of_reachable reachable
  have arising : Kernel.telling.Later {} shell.kernel := Shell.Runs.later reachable
  obtain ⟨phase, kernel⟩ := shell
  refine ⟨?_, ?_, ?_, ?_, Kernel.collections_perm arising,
    (Orderly.of_later Orderly.nil arising).distinct⟩
  · rintro session rfl entry listed pid member
    obtain ⟨⟨accounts, -, held⟩, -⟩ := sound
    rw [held.lists, mem_entriesOf] at listed
    obtain ⟨account, known, -, rfl⟩ := listed
    obtain ⟨attempt, there, lives, runs⟩ :=
      (held.custody.follows account known).exists_attempt member
    exact ⟨attempt, (Kernel.slice_sublist _ _ _).subset there, lives, runs⟩
  · rintro session rfl
    obtain ⟨⟨accounts, -, held⟩, -⟩ := sound
    rw [held.lists, processes_entriesOf]
    have distinct := held.custody.distinct
    rwa [List.append_nil] at distinct
  · rintro operation call next rfl
    obtain ⟨-, answered, drifts, remaining⟩ := sound
    exact (remaining kernel drifts).1.namesUncollected
  · rintro operation outcome session rfl pid rfl
    obtain ⟨-, answered, drifts, tame, -⟩ := sound
    have fatal : (Stop.failure (.waitFailed pid)).isFatal = false := tame _ rfl
    cases fatal

/-- A shell that has started a job in the background and waits for it in the foreground. -/
theorem Shell.pidSafe_while_waiting :
    ∃ shell operation next, Shell.Reachable Kernel.telling {} shell ∧
      shell.phase = .busy operation (.step (.wait ⟨7⟩) next) ∧ shell.PidSafe := by
  let job : Job := { input := "sleep &", first := { program := "sleep" }, background := true }
  have started : ∃ session kernel,
      Shell.Runs (fun _ => True) Kernel.telling ⟨.idle (Session.ofSettings {}), {}⟩
        ⟨.idle session, kernel⟩ ∧ ∃ next after,
      Kernel.telling.Leads
        ⟨(Operation.foreground none .output).activity.perform session, kernel⟩
        ⟨.step (.wait ⟨7⟩) next, after⟩ := by
    apply Exists.intro
    apply Exists.intro
    apply And.intro
    · apply Shell.Runs.perform ReflTransGen.refl (.job job) trivial
      refine Leads.answer (.ok ⟨7⟩) ⟨_, ⟨by decide, rfl⟩, rfl⟩ ?_
      refine Leads.answer (⟨0⟩ : Moment) ⟨_, rfl, rfl⟩ ?_
      exact ReflTransGen.refl
    · apply Exists.intro
      apply Exists.intro
      refine Leads.answer (.ok ()) ⟨_, rfl, rfl⟩ ?_
      refine Leads.answer (0 : Nat) ⟨_, rfl, rfl⟩ ?_
      exact ReflTransGen.refl
  obtain ⟨session, kernel, runs, next, after, leads⟩ := started
  have reachable := runs.underway (.foreground none .output) trivial leads
  exact ⟨_, _, next, reachable, rfl, Shell.pidSafe_of_reachable reachable⟩

end JobControl
