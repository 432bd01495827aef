import JobControl.Proofs.Shell
/-!
# Children that end without a name

Nothing can be told of a child that was killed by a signal without a name.  Until such a child is
collected a session cannot know that it has ended: the session may as well believe that it still
runs.  So everything that a shell does until then it also does where it can be told of every ending,
and what is known of the shells there holds here, too.
-/

namespace JobControl

open Relation World

/-! ## What may be believed -/

/-- The life that may be believed of a child: one that ended without a name still runs. -/
def Life.believed : Life → Life
  | .ended pid ending => if ending.hasName then .ended pid ending else .running pid
  | life => life

def Attempt.believed (attempt : Attempt) : Attempt :=
  { attempt with life := attempt.life.believed }

def Kernel.believed (kernel : Kernel) : Kernel :=
  { kernel with attempts := kernel.attempts.map Attempt.believed }

/-- Whether the child has been collected, and nothing could be told of how it ended. -/
def Life.isUntold : Life → Bool
  | .collected _ ending => !ending.hasName
  | _ => false

/-- Whether a child of a table has been collected of whose ending nothing could be told. -/
def hasUntold (attempts : List Attempt) : Bool :=
  attempts.any fun attempt => attempt.life.isUntold

namespace Life

private theorem believed_of_name {pid : Pid} {ending : Ending} (named : ending.hasName = true) :
    (Life.ended pid ending).believed = .ended pid ending :=
  if_pos named

private theorem believed_of_nameless {pid : Pid} {ending : Ending}
    (nameless : ending.hasName = false) :
    (Life.ended pid ending).believed = .running pid :=
  if_neg (Bool.not_eq_true _ ▸ nameless)

/-- What does not tell a child that has ended from one that runs sees no difference. -/
theorem view_believed {α : Type} (view : Life → α)
    (same : ∀ pid ending, view (.ended pid ending) = view (.running pid)) (life : Life) :
    view life.believed = view life := by
  cases life with
  | ended pid ending =>
      cases named : ending.hasName with
      | true => rw [believed_of_name named]
      | false => rw [believed_of_nameless named, same]
  | _ => rfl

private theorem isWaiting_of_believed {life : Life} (waits : life.believed.isWaiting = true) :
    life.isWaiting = true := by
  cases life with
  | ended pid ending => rfl
  | _ => exact waits

end Life

private theorem uncollectedOf_believed (attempts : List Attempt) :
    uncollectedOf (attempts.map Attempt.believed) = uncollectedOf attempts := by
  unfold uncollectedOf
  rw [List.filterMap_map]
  exact List.filterMap_congr fun attempt _ =>
    Life.view_believed Life.uncollected? (fun _ _ => rfl) attempt.life

theorem slice_believed (attempts : List Attempt) (start count : Nat) :
    Kernel.slice (attempts.map Attempt.believed) start count =
      (Kernel.slice attempts start count).map Attempt.believed := by
  unfold Kernel.slice
  rw [← List.map_drop, ← List.map_take]

theorem Turns.believed {old new : Life} {attempts turned : List Attempt}
    (turns : Turns old new attempts turned) :
    Turns old.believed new.believed (attempts.map Attempt.believed)
      (turned.map Attempt.believed) := by
  induction turns with
  | here lived => exact .here (congrArg Life.believed lived)
  | later _ inductionHypothesis => exact .later inductionHypothesis

/-- What is believed of a table does not change with a turn that is not believed. -/
theorem Turns.believed_eq {old new : Life} {attempts turned : List Attempt}
    (turns : Turns old new attempts turned) (same : new.believed = old.believed) :
    turned.map Attempt.believed = attempts.map Attempt.believed := by
  induction turns with
  | here lived =>
      rw [List.map_cons, List.map_cons]
      congr 1
      unfold Attempt.believed
      rw [same, lived]
  | later _ inductionHypothesis => rw [List.map_cons, List.map_cons, inductionHypothesis]

private theorem knows_believed {entry : Entry} {life : Life} (knows : entry.Knows life.believed) :
    entry.Knows life :=
  (Life.view_believed entry.Knows (fun _ _ => rfl) life).mp knows

theorem runs_believed {attempts : List Attempt} {steps : List Step}
    (runs : List.Forall₂ Attempt.Runs (attempts.map Attempt.believed) steps) :
    List.Forall₂ Attempt.Runs attempts steps := by
  have kept := List.forall₂_map_left_iff.1 runs
  exact kept

/-- An entry that follows what is believed of some attempts follows the attempts. -/
theorem Entry.Follows.of_believed {entry : Entry} {attempts : List Attempt}
    (follows : entry.Follows (attempts.map Attempt.believed)) : entry.Follows attempts where
  runs := runs_believed follows.runs
  distinct := by
    have distinct := follows.distinct
    rw [List.filterMap_map] at distinct
    have same : ∀ attempt ∈ attempts,
        attempt.believed.life.pid? = attempt.life.pid? := fun attempt _ =>
      Life.view_believed Life.pid? (fun _ _ => rfl) attempt.life
    exact List.filterMap_congr same ▸ distinct
  processes := by rw [follows.processes, uncollectedOf_believed]
  named := follows.named
  known := by
    intro last found
    apply knows_believed
    exact follows.known last.believed (by rw [List.getLast?_map, found]; rfl)

/-! ## What is told of is believed -/

section Believing

variable {endings : Ending → Prop} {before after : Kernel}

private theorem Grows.keeps_untold {table aged : List Attempt} (grows : Grows table aged)
    (untold : hasUntold table = true) : hasUntold aged = true := by
  obtain ⟨attempt, member, lost⟩ := List.any_eq_true.1 untold
  obtain ⟨place, inside, rfl⟩ := List.mem_iff_getElem.1 member
  obtain ⟨later, found, becomes, -⟩ := grows place _ (List.getElem?_eq_getElem inside)
  refine List.any_eq_true.2 ⟨later, List.mem_of_getElem? found, ?_⟩
  generalize table[place].life = life at lost becomes
  generalize later.life = lived at becomes
  cases becomes with
  | same => exact lost
  | _ => cases lost

theorem Grows.told {table aged : List Attempt} (grows : Grows table aged)
    (told : hasUntold aged = false) : hasUntold table = false :=
  Bool.eq_false_iff.2 fun untold => Bool.eq_false_iff.1 told (grows.keeps_untold untold)

theorem Turns.hasUntold_eq {old new : Life} {attempts turned : List Attempt}
    (turns : Turns old new attempts turned) (same : new.isUntold = old.isUntold) :
    hasUntold turned = hasUntold attempts := by
  unfold hasUntold
  induction turns with
  | here lived => rw [List.any_cons, List.any_cons, lived, same]
  | later _ inductionHypothesis => rw [List.any_cons, List.any_cons, inductionHypothesis]

theorem Turns.hasName {attempts turned : List Attempt} {pid : Pid} {ending : Ending}
    (turns : Turns (.ended pid ending) (.collected pid ending) attempts turned)
    (told : hasUntold turned = false) : ending.hasName = true := by
  unfold hasUntold at told
  induction turns with
  | here _ =>
      rw [List.any_cons, Bool.or_eq_false_iff] at told
      simpa [Life.isUntold] using told.1
  | later _ inductionHypothesis =>
      rw [List.any_cons, Bool.or_eq_false_iff] at told
      exact inductionHypothesis told.2

theorem Kernel.Stirs.believed (stirs : Kernel.Stirs endings before after) :
    Kernel.Stirs Ending.IsTold before.believed after.believed := by
  cases stirs with
  | @childEnds pid ending turned _ turns =>
      cases named : ending.hasName with
      | true =>
          have believed := turns.believed
          rw [Life.believed_of_name named] at believed
          exact .childEnds (Ending.isTold_iff.2 named) believed
      | false =>
          have same := turns.believed_eq (Life.believed_of_nameless named)
          have raised : Kernel.Stirs Ending.IsTold before.believed
              { before.believed with reapWanted := true } := .alarm
          unfold Kernel.believed at raised ⊢
          rw [same]
          exact raised
  | alarm => exact .alarm

private theorem Kernel.hasWaiting_believed (none : before.hasWaiting = false) :
    before.believed.hasWaiting = false := by
  unfold Kernel.hasWaiting Kernel.believed at *
  rw [List.any_map, List.any_eq_false] at *
  exact fun attempt member waits => none attempt member (Life.isWaiting_of_believed waits)

private theorem Kernel.enter_believed (kernel : Kernel) (launch : Launch) {life : Life}
    (same : life.believed = life) :
    (kernel.enter launch life).believed = kernel.believed.enter launch life := by
  unfold Kernel.enter Kernel.believed
  rw [List.map_append, List.map_singleton, Attempt.believed, same]
  rfl

theorem Kernel.Responds.believed {call : Call} {given : call.Answer}
    (responds : before.Responds call given after) (told : hasUntold after.attempts = false) :
    before.believed.Responds call given after.believed := by
  cases call with
  | takeFlag signal =>
      cases signal with
      | childEnded =>
          obtain ⟨rfl, rfl⟩ := responds
          exact ⟨rfl, rfl⟩
      | shutdown =>
          obtain rfl := responds
          rfl
  | openInput path =>
      cases given with
      | error fault =>
          obtain rfl := responds
          rfl
      | ok handle =>
          obtain ⟨free, rfl⟩ := responds
          exact ⟨free, rfl⟩
  | openOutput path permissions =>
      cases given with
      | error fault =>
          obtain rfl := responds
          rfl
      | ok handle =>
          obtain ⟨free, rfl⟩ := responds
          exact ⟨free, rfl⟩
  | makePipe onExec =>
      cases given with
      | error reason =>
          obtain rfl := responds
          rfl
      | ok ends =>
          obtain ⟨readFree, writeFree, apart, rfl⟩ := responds
          exact ⟨readFree, writeFree, apart, rfl⟩
  | close handle =>
      obtain rfl := responds
      rfl
  | launch launch =>
      cases given with
      | error fault =>
          obtain ⟨raised, kept, rfl⟩ := responds
          refine ⟨raised, kept, ?_⟩
          rw [← Kernel.enter_believed before launch rfl]
          rfl
      | ok pid =>
          obtain ⟨fresh, rfl⟩ := responds
          refine ⟨?_, Kernel.enter_believed before launch rfl⟩
          unfold Kernel.uncollected Kernel.believed
          rw [uncollectedOf_believed]
          exact fresh
  | wait pid =>
      obtain ⟨ending, turned, turns, rfl, rfl⟩ | ⟨absent, rfl, rfl⟩ | ⟨again, some, rfl⟩ := responds
      · have believed := turns.believed
        rw [Life.believed_of_name (turns.hasName told)] at believed
        exact .inl ⟨ending, _, believed, rfl, rfl⟩
      · refine .inr (.inl ⟨?_, rfl, rfl⟩)
        unfold Kernel.uncollected Kernel.believed
        rw [uncollectedOf_believed]
        exact absent
      · exact .inr (.inr ⟨again, some, rfl⟩)
  | lookAtChildren =>
      obtain ⟨pid, ending, turned, turns, rfl, rfl⟩ | ⟨none, nothing, rfl⟩ | ⟨rfl, some, rfl⟩ :=
        responds
      · have believed := turns.believed
        rw [Life.believed_of_name (turns.hasName told)] at believed
        exact .inl ⟨pid, ending, _, believed, rfl, rfl⟩
      · exact .inr (.inl ⟨Kernel.hasWaiting_believed none, nothing, rfl⟩)
      · exact .inr (.inr ⟨rfl, some, rfl⟩)
  | bound what =>
      cases what with
      | waits =>
          obtain rfl := responds
          rfl
      | looksAtChildren =>
          obtain ⟨again, enough, rfl⟩ := responds
          refine ⟨again, ?_, rfl⟩
          unfold Kernel.uncollected Kernel.believed
          rw [uncollectedOf_believed]
          exact enough
      | inputLines =>
          obtain rfl := responds
          rfl
  | _ =>
      obtain rfl := responds
      rfl

/-- One thing that happens to a program is believed to happen as long as nothing is untold. -/
theorem Kernel.step_believed {α : Type} {scene next : Scene Kernel α}
    (step : (Kernel.world endings).Step scene next) (told : hasUntold next.state.attempts = false) :
    Kernel.telling.Step ⟨scene.program, scene.state.believed⟩
      ⟨next.program, next.state.believed⟩ := by
  cases step with
  | stir stirs => exact .stir (Kernel.Stirs.believed stirs)
  | answer answers =>
      obtain ⟨answered, responds, rfl⟩ := answers
      exact .answer ⟨answered.believed, responds.believed told, rfl⟩

theorem Kernel.leads_believed {α : Type} {scene next : Scene Kernel α}
    (leads : (Kernel.world endings).Leads scene next)
    (told : hasUntold next.state.attempts = false) :
    Kernel.telling.Leads ⟨scene.program, scene.state.believed⟩
      ⟨next.program, next.state.believed⟩ := by
  induction leads with
  | refl => exact ReflTransGen.refl
  | tail _ step inductionHypothesis =>
      have grows := Kernel.grows_of_later (Step.later step)
      exact (inductionHypothesis (grows.told told)).tail (Kernel.step_believed step told)

end Believing

/-! ## Shells -/

/-- The shell as it may be believed to be. -/
def Shell.believed (shell : Shell) : Shell :=
  { shell with kernel := shell.kernel.believed }

theorem Shell.Step.believed {endings : Ending → Prop} {allowed : Operation → Prop}
    {before after : Shell} (step : Step allowed (Kernel.world endings) before after)
    (told : hasUntold after.kernel.attempts = false) :
    Step allowed Kernel.telling before.believed after.believed := by
  cases step with
  | begins allow => exact .begins allow
  | acts acted => exact .acts (Kernel.step_believed acted told)
  | returns => exact .returns
  | stirs stirred => exact .stirs (Kernel.Stirs.believed stirred)

/-- Where a shell has come before any child was collected of which nothing could be told, it may be
believed to be where it can be told of every ending. -/
theorem Shell.Reachable.believed {endings : Ending → Prop} {settings : Settings} {shell : Shell}
    (reachable : Reachable (Kernel.world endings) settings shell)
    (told : hasUntold shell.kernel.attempts = false) :
    Reachable Kernel.telling settings shell.believed := by
  induction reachable with
  | refl => exact ReflTransGen.refl
  | tail _ step inductionHypothesis =>
      have grows := Kernel.grows_of_later step.later
      exact (inductionHypothesis (grows.told told)).tail (step.believed told)

/-! ## Waits that succeed -/

section Waiting

variable {endings : Ending → Prop} {kernel : Kernel}

theorem Ages.hasUntold_eq {table aged : List Attempt} (ages : Ages endings table aged) :
    hasUntold aged = hasUntold table := by
  induction ages with
  | refl => rfl
  | tail _ turned inductionHypothesis =>
      obtain ⟨pid, ending, -, turns⟩ := turned
      exact (turns.hasUntold_eq rfl).trans inductionHypothesis

/-- It could be told of every child that has been waited for without failure. -/
theorem waitForProcesses_tells (last : Option Pid) (known : Option Int) (pids : List Pid)
    (told : hasUntold kernel.attempts = false) :
    (Kernel.world endings).Ensures (fun _ _ => True) (waitForProcesses last known pids).run
      (fun outcome after => ∀ status, outcome = .ok status → hasUntold after.attempts = false)
      kernel := by
  induction pids generalizing known kernel with
  | nil => exact fun _ _ => told
  | cons pid rest inductionHypothesis =>
      rw [waitForProcesses, ensures_run_bind]
      refine waitFor_ensures (fun _ _ => trivial) (fun _ _ => trivial) ?_ ?_
      · intro asked ending turned lingers turns
        by_cases named : ending.hasName = true
        · rw [if_pos named, afterAction_ok]
          apply inductionHypothesis
          have same : (Life.collected pid ending).isUntold = (Life.ended pid ending).isUntold := by
            simp [Life.isUntold, named]
          exact (turns.hasUntold_eq same).trans (lingers.ages.hasUntold_eq.trans told)
        · rw [if_neg named]
          intro status failed
          cases failed
      · intro _ _ _ status failed
        cases failed

theorem bringToForeground_tells {session : Session} (wanted : Option Pid) (outlet : Outlet)
    (told : hasUntold kernel.attempts = false) :
    (Kernel.world endings).Achieves (fun _ _ => True) (Session.bringToForeground wanted outlet)
      session (fun outcome _ after => outcome = .ok () → hasUntold after.attempts = false)
      kernel := by
  unfold Session.bringToForeground
  rw [achieves_bind, achieves_get, afterActivity_ok]
  cases Session.takeJob session.jobs wanted with
  | error failure => exact fun failed => nomatch failed
  | ok taken =>
      dsimp only
      rw [achieves_bind, achieves_set, afterActivity_ok, achieves_bind, achieves_lift]
      refine (ages_of_plain (write_within outlet _) kernel).mono ?_
      rintro (stop | _) written ages
      · exact fun failed => nomatch failed
      · rw [afterActivity_ok, achieves_bind, achieves_lift]
        have toldThen := ages.hasUntold_eq.trans told
        refine (waitForProcesses_tells _ _ _ toldThen).mono ?_
        rintro (stop | status) waited tells
        · exact fun failed => nomatch failed
        · rw [afterActivity_ok]
          cases status with
          | none => exact fun _ => tells none rfl
          | some status => exact fun _ => tells (some status) rfl

end Waiting

end JobControl
