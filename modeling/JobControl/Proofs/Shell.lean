import JobControl.Proofs.Custody.Operations
/-!
# Shells

A shell is a session in a world of the kernel: idle between two operations, or busy with one.  Any
operation may be asked for when it is idle, and children may end at any moment.  In every state
that a shell can reach the registered jobs are in custody, and an operation under way will leave
them so.
-/

namespace JobControl

open Relation World

/-- What a session can be asked to do. -/
inductive Operation where
  | line (text : String)
  | job (job : Job)
  | signals
  | foreground (pid : Option Pid) (outlet : Outlet)
  | exit (outlet : Outlet)
  deriving DecidableEq, Repr

namespace Operation

/-- What the session then does. -/
def activity : Operation → Activity Unit
  | .line text => Session.runLine text
  | .job asked => Session.runJob asked
  | .signals => Session.processSignals
  | .foreground pid outlet => Session.bringToForeground pid outlet
  | .exit outlet => Session.exit outlet

/-- Whether an operation takes no job out of the registry before it is done: the session acts on
signals, or runs a job that is no builtin. -/
def Spares : Operation → Prop
  | .signals => True
  | .job asked => Builtin.ofName? asked.program = none
  | _ => False

/-- How the calls of an operation fit: only acting on signals reaps any children. -/
def Fits : Operation → Call → Kernel → Prop
  | .signals => Call.NamesUncollected
  | _ => Call.IsSafe

theorem Fits.namesUncollected {operation : Operation} {call : Call} {kernel : Kernel}
    (fits : operation.Fits call kernel) : call.NamesUncollected kernel := by
  cases operation with
  | signals => exact fits
  | _ => exact fits.1

end Operation

/-- What a shell is doing. -/
inductive Phase where
  | idle (session : Session)
  | busy (operation : Operation) (rest : Program (Except Stop Unit × Session))

/-- A session and the kernel that it runs on. -/
structure Shell where
  phase : Phase
  kernel : Kernel

namespace Shell

/-- One thing that happens to a shell of which only some operations are asked. -/
inductive Step (allowed : Operation → Prop) (world : World Kernel) : Shell → Shell → Prop
  | begins {session : Session} {kernel : Kernel} {operation : Operation} :
      allowed operation →
      Step allowed world ⟨.idle session, kernel⟩
        ⟨.busy operation (operation.activity.perform session), kernel⟩
  | acts {operation : Operation} {rest next : Program (Except Stop Unit × Session)}
      {before after : Kernel} :
      world.Step ⟨rest, before⟩ ⟨next, after⟩ →
      Step allowed world ⟨.busy operation rest, before⟩ ⟨.busy operation next, after⟩
  | returns {operation : Operation} {outcome : Except Stop Unit} {session : Session}
      {kernel : Kernel} :
      Step allowed world ⟨.busy operation (.done (outcome, session)), kernel⟩
        ⟨.idle session, kernel⟩
  | stirs {session : Session} {before after : Kernel} :
      world.stirs before after →
      Step allowed world ⟨.idle session, before⟩ ⟨.idle session, after⟩

/-- What a shell of which only some operations are asked comes to. -/
def Runs (allowed : Operation → Prop) (world : World Kernel) : Shell → Shell → Prop :=
  ReflTransGen (Step allowed world)

/-- The states that a shell with these settings can reach, whatever is asked of it. -/
def Reachable (world : World Kernel) (settings : Settings) (shell : Shell) : Prop :=
  Runs (fun _ => True) world ⟨.idle (Session.ofSettings settings), {}⟩ shell

section Runs

variable {allowed : Operation → Prop} {world : World Kernel}

theorem Step.later {before after : Shell} (step : Step allowed world before after) :
    world.Later before.kernel after.kernel := by
  cases step with
  | begins _ => exact ReflTransGen.refl
  | acts acted => exact World.Step.later acted
  | returns => exact ReflTransGen.refl
  | stirs stirred => exact ReflTransGen.single (Or.inl stirred)

theorem Runs.later {before after : Shell} (runs : Runs allowed world before after) :
    world.Later before.kernel after.kernel := by
  induction runs with
  | refl => exact ReflTransGen.refl
  | tail _ step inductionHypothesis => exact inductionHypothesis.trans step.later

theorem Runs.acts {operation : Operation} {before after : Scene Kernel (Except Stop Unit × Session)}
    (leads : world.Leads before after) :
    Runs allowed world ⟨.busy operation before.program, before.state⟩
      ⟨.busy operation after.program, after.state⟩ := by
  induction leads with
  | refl => exact ReflTransGen.refl
  | tail _ step inductionHypothesis => exact inductionHypothesis.tail (Step.acts step)

theorem Runs.underway {start : Shell} {session : Session} {kernel after : Kernel}
    {rest : Program (Except Stop Unit × Session)}
    (runs : Runs allowed world start ⟨.idle session, kernel⟩) (operation : Operation)
    (allow : allowed operation)
    (leads : world.Leads ⟨operation.activity.perform session, kernel⟩ ⟨rest, after⟩) :
    Runs allowed world start ⟨.busy operation rest, after⟩ :=
  (runs.tail (Step.begins allow)).trans (Runs.acts leads)

/-- A shell that is idle may perform an operation and is then idle again. -/
theorem Runs.perform {start : Shell} {session changed : Session} {kernel after : Kernel}
    {outcome : Except Stop Unit} (runs : Runs allowed world start ⟨.idle session, kernel⟩)
    (operation : Operation) (allow : allowed operation)
    (leads : world.Leads ⟨operation.activity.perform session, kernel⟩
      ⟨.done (outcome, changed), after⟩) :
    Runs allowed world start ⟨.idle changed, after⟩ :=
  (runs.underway operation allow leads).tail Step.returns

end Runs

/-! ## Soundness -/

/-- What an operation that is done leaves. -/
def Leaves (known : List Account) (result : Except Stop Unit × Session) (after : Kernel) : Prop :=
  IsTame result.1 ∧ result.2.jobs.CarriesOn after.attempts known ∧ after.isSweeping = false

/-- The registered jobs are in custody, those known from before among them, or will be once the
operation under way is done. -/
def Sound (known : List Account) (shell : Shell) : Prop :=
  match shell.phase with
  | .idle session =>
      session.jobs.CarriesOn shell.kernel.attempts known ∧ shell.kernel.isSweeping = false
  | .busy operation rest =>
      (operation ≠ .signals → shell.kernel.isSweeping = false) ∧
        ∃ answered, Kernel.telling.Drifts answered shell.kernel ∧
          Kernel.telling.Ensures operation.Fits rest (Leaves known) answered

private theorem leaves_of_upholds {known accounts : List Account} (keeps : Keeps known accounts)
    {activity : Activity Unit} {session : Session} {kernel : Kernel}
    (calm : kernel.isSweeping = false)
    (achieved : Kernel.telling.Achieves Call.IsSafe activity session (Upholds accounts) kernel) :
    Kernel.telling.Ensures Call.IsSafe (activity.perform session) (Leaves known) kernel := by
  refine achieved.calm.mono ?_
  rintro ⟨outcome, changed⟩ after ⟨⟨tame, carried⟩, same⟩
  exact ⟨tame, carried.trans keeps, same.trans calm⟩

/-- Every operation leaves the registered jobs in custody; one that spares the registry leaves
there all that were known before. -/
theorem operation_leaves (operation : Operation) {known accounts : List Account}
    (spares : operation.Spares ∨ known = []) (keeps : Keeps known accounts)
    {session : Session} {kernel : Kernel}
    (held : session.jobs.InCustody kernel.attempts accounts)
    (calm : kernel.isSweeping = false) :
    Kernel.telling.Ensures operation.Fits (operation.activity.perform session) (Leaves known)
      kernel := by
  have anyway : known = [] → ∀ activity : Activity Unit,
      Kernel.telling.Achieves Call.IsSafe activity session (Upholds []) kernel →
      Kernel.telling.Ensures Call.IsSafe (activity.perform session) (Leaves known) kernel := by
    rintro rfl activity achieved
    exact leaves_of_upholds (Keeps.refl []) calm achieved
  have unspared : ¬ operation.Spares → known = [] := fun refused => spares.resolve_left refused
  cases operation with
  | line text => exact anyway (unspared id) _ (runLine_upholds text held)
  | foreground pid outlet =>
      refine anyway (unspared id) _ ((bringToForeground_upholds held pid outlet).mono ?_)
      exact fun _ _ _ reached => reached.1
  | exit outlet => exact anyway (unspared id) _ (exit_upholds held outlet)
  | signals =>
      refine Ensures.mono (processSignals_upholds held calm) ?_
      rintro ⟨outcome, changed⟩ after ⟨⟨tame, carried⟩, calmAfter⟩
      exact ⟨tame, carried.trans keeps, calmAfter⟩
  | job job =>
      by_cases program : Builtin.ofName? job.program = none
      · refine leaves_of_upholds keeps calm ?_
        change Kernel.telling.Achieves Call.IsSafe (Session.runJob job) session _ kernel
        unfold Session.runJob
        rw [program]
        refine (runProgramJob_performs job held).mono ?_
        rintro outcome changed after ⟨tame, later, enters, inCustody, -⟩
        exact ⟨tame, later, enters.keeps, inCustody⟩
      · exact anyway (unspared program) _ (runJob_upholds job held)

theorem Sound.step {allowed : Operation → Prop} {known : List Account}
    (sparing : ∀ operation, allowed operation → operation.Spares ∨ known = [])
    {before after : Shell} (sound : before.Sound known)
    (step : Step allowed Kernel.telling before after) : after.Sound known := by
  cases step with
  | @begins session kernel operation allow =>
      obtain ⟨⟨accounts, keeps, held⟩, calm⟩ := sound
      exact ⟨fun _ => calm, kernel, ReflTransGen.refl,
        operation_leaves operation (sparing operation allow) keeps held calm⟩
  | @acts operation rest next kernel later acted =>
      obtain ⟨calm, answered, drifts, remaining⟩ := sound
      cases acted with
      | stir stirred =>
          refine ⟨fun other => ?_, answered, drifts.tail stirred, remaining⟩
          have same := Kernel.isSweeping_of_drifts (ReflTransGen.single stirred)
          exact same.trans (calm other)
      | @answer call _ _ _ given answers =>
          obtain ⟨fits, goesOn⟩ := remaining kernel drifts
          refine ⟨fun other => ?_, later, ReflTransGen.refl, goesOn _ _ answers⟩
          -- No operation but acting on signals makes a call that begins or ends a sweep.
          have apart : call.sweeps = false := by
            cases operation with
            | signals => exact absurd rfl other
            | _ => exact fits.2
          exact (Kernel.isSweeping_of_answers apart answers).trans (calm other)
  | returns =>
      obtain ⟨-, answered, drifts, -, ⟨later, keeps, held⟩, calm⟩ := sound
      refine ⟨⟨later, keeps, held.custody.of_drifts drifts, held.lists⟩, ?_⟩
      exact (Kernel.isSweeping_of_drifts drifts).trans calm
  | stirs stirred =>
      obtain ⟨⟨later, keeps, held⟩, calm⟩ := sound
      refine ⟨⟨later, keeps, held.custody.of_stirs stirred, held.lists⟩, ?_⟩
      exact (Kernel.isSweeping_of_drifts (ReflTransGen.single stirred)).trans calm

theorem Sound.runs {allowed : Operation → Prop} {known : List Account}
    (sparing : ∀ operation, allowed operation → operation.Spares ∨ known = [])
    {before after : Shell} (sound : before.Sound known)
    (runs : Runs allowed Kernel.telling before after) : after.Sound known := by
  induction runs with
  | refl => exact sound
  | tail _ step inductionHypothesis => exact inductionHypothesis.step sparing step

theorem Sound.of_reachable {settings : Settings} {shell : Shell}
    (reachable : Reachable Kernel.telling settings shell) : shell.Sound [] := by
  refine Sound.runs (fun _ _ => Or.inr rfl) ?_ reachable
  refine ⟨⟨[], Keeps.refl [], ⟨Orderly.nil, List.nodup_nil, ?_, ?_⟩, rfl⟩, rfl⟩
  · exact fun pid member => absurd member List.not_mem_nil
  · exact fun account member => absurd member List.not_mem_nil

end Shell

end JobControl
