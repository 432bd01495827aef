import JobControl.Proofs.Pipeline
/-!
# Starting in custody

The children of the steps that are started are taken into custody, and a pipeline that is given up
lets none of them go before it has been collected.
-/

namespace JobControl

open World

/-- The children of steps that are not known to have ended. -/
def runningOf (started : List StartedStep) : List Pid :=
  started.filterMap StartedStep.running?

private theorem runningOf_append (started : List StartedStep) (told : StartedStep) :
    runningOf (started ++ [told]) = runningOf started ++ runningOf [told] :=
  List.filterMap_append

section Custody

variable {kernel : Kernel} {accounts : List Account}

/-- A step that is started brings its child into custody. -/
theorem startStep_safe (step : Step) (streams : Redirections) {loose : List Pid}
    (custody : Custody kernel.attempts accounts loose) :
    Kernel.telling.Ensures Call.IsSafe (startStep step streams).run
      (fun outcome after => IsTame outcome ∧
        match outcome with
        | .ok started => Custody after.attempts accounts (loose ++ runningOf [started])
        | .error _ => Custody after.attempts accounts loose) kernel := by
  unfold startStep
  rw [ensures_run_bind, ensures_run_ask]
  intro asked drifts
  refine ⟨⟨trivial, rfl⟩, ?_⟩
  have inCustody : Custody asked.attempts accounts loose := custody.of_drifts drifts
  rintro given after ⟨answered, responds, rfl⟩
  rw [afterAction_ok]
  cases given with
  | ok pid =>
      obtain ⟨fresh, rfl⟩ := responds
      refine ⟨isTame_ok _, ?_⟩
      refine Custody.take_loose
        (inCustody.of_append (inCustody.orderly.of_moves (.starts rfl fresh))) ?_ ?_
      · exact List.mem_filterMap.2 ⟨_, List.mem_append_right _ List.mem_cons_self, rfl⟩
      · intro member
        refine fresh ?_
        rcases List.mem_append.1 member with registered | known
        · exact inCustody.processes_mem_uncollected registered
        · exact inCustody.loose pid known
  | error fault =>
      obtain ⟨raised, -, rfl⟩ := responds
      have entered : Custody (asked.enter
          { program := step.program
            arguments := step.arguments
            input := streams.input
            output := streams.output
            errors := streams.errors } (.refused fault)).attempts accounts loose :=
        inCustody.of_append (inCustody.orderly.of_moves (.refuses rfl))
      dsimp only
      rw [ensures_run_bind]
      refine Ensures.mono (entered.plain_from ?_ (Action.complain_isPlain _)) ?_
      · rfl
      rintro (stop | _) told ⟨tame, kept⟩
      · exact ⟨tame.of_error, kept⟩
      · rw [afterAction_ok]
        refine ⟨isTame_ok _, ?_⟩
        change Custody told.attempts accounts (loose ++ [])
        rw [List.append_nil]
        exact kept

/-- The children of a pipeline are in custody once it stands; one that is given up leaves none. -/
theorem startPipeline_safe (steps : List Step) {source : Option Handle}
    {started : List StartedStep}
    (custody : Custody kernel.attempts accounts (runningOf started)) :
    Kernel.telling.Ensures Call.IsSafe (startPipeline source started steps).run
      (fun outcome after => IsTame outcome ∧
        match outcome with
        | .ok result => Custody after.attempts accounts (runningOf result)
        | .error _ => Custody after.attempts accounts []) kernel := by
  induction steps generalizing source started kernel with
  | nil =>
      exact ⟨isTame_ok started, custody⟩
  | cons step others inductionHypothesis =>
      cases others with
      | nil =>
          rw [startPipeline, ensures_run_bind]
          refine (startStep_safe step { input := source } custody).mono ?_
          rintro (stop | told) after ⟨tame, kept⟩
          · exact ⟨tame.of_error,
              kept.sublist (List.Sublist.refl _) (List.nil_sublist _)⟩
          · rw [afterAction_ok, ensures_run_bind, ensures_run_lift]
            refine (Custody.plain kept (Redirections.closeHandle_plain source)).mono ?_
            rintro _ closed ⟨-, inCustody⟩
            refine ⟨isTame_ok _, ?_⟩
            dsimp only
            rw [runningOf_append]
            exact inCustody
      | cons next rest =>
          rw [startPipeline, ensures_run_bind, ensures_run_ask]
          intro asked drifts
          refine ⟨Call.isSafe_of_plain rfl asked, ?_⟩
          intro given after answers
          have inCustody : Custody after.attempts accounts (runningOf started) := by
            rw [Kernel.attempts_of_plain rfl answers]
            exact custody.of_drifts drifts
          rw [afterAction_ok]
          cases given with
          | error reason =>
              dsimp only
              rw [ensures_run_bind, ensures_run_lift]
              refine (Custody.plain inCustody (Redirections.closeHandle_plain source)).mono ?_
              rintro _ closed ⟨-, closedCustody⟩
              rw [afterAction_ok, ensures_run_bind, ensures_run_lift]
              have toWait : Custody closed.attempts accounts
                  (started.filterMap StartedStep.running? ++ []) := by
                rw [List.append_nil]
                exact closedCustody
              refine (waitForAll_safe toWait).mono ?_
              rintro ⟨waited, others⟩ last ⟨⟨status, rfl⟩, kept⟩
              exact ⟨isTame_error rfl, kept⟩
          | ok ends =>
              dsimp only
              rw [ensures_run_bind]
              refine (startStep_safe step _ inCustody).mono ?_
              rintro (stop | told) entered ⟨tame, kept⟩
              · exact ⟨tame.of_error,
                  kept.sublist (List.Sublist.refl _) (List.nil_sublist _)⟩
              · rw [afterAction_ok, ensures_run_bind, ensures_run_lift]
                refine (Custody.plain kept (Redirections.closeHandle_plain source)).mono ?_
                rintro _ closed ⟨-, closedCustody⟩
                rw [afterAction_ok, ensures_run_bind, ensures_run_ask]
                intro closing closingDrifts
                refine ⟨Call.isSafe_of_plain rfl closing, ?_⟩
                intro _ handed closingAnswers
                rw [afterAction_ok]
                have handedCustody :
                    Custody handed.attempts accounts (runningOf (started ++ [told])) := by
                  rw [Kernel.attempts_of_plain rfl closingAnswers, runningOf_append]
                  exact closedCustody.of_drifts closingDrifts
                exact inductionHypothesis handedCustody

theorem startSteps_safe (job : Job) (streams : Redirections)
    (custody : Custody kernel.attempts accounts []) :
    Kernel.telling.Ensures Call.IsSafe (startSteps job streams).run
      (fun outcome after => IsTame outcome ∧
        match outcome with
        | .ok result => Custody after.attempts accounts (runningOf result)
        | .error _ => Custody after.attempts accounts []) kernel := by
  unfold startSteps
  split
  · exact startPipeline_safe job.steps custody
  · rw [ensures_run_bind]
    refine (startStep_safe job.first streams custody).mono ?_
    rintro (stop | told) after ⟨tame, kept⟩
    · exact ⟨tame.of_error, kept⟩
    · rw [afterAction_ok, ensures_run_bind, ensures_run_lift]
      refine (Custody.plain kept (Redirections.close_plain streams)).mono ?_
      exact fun _ closed reached => ⟨isTame_ok _, reached.2⟩

end Custody

/-! ## The attempts of a job -/

private theorem runs_of_outfits {attempts : List Attempt} {steps : List Step} {others : List Opened}
    {pipes : Nat} {source : Stream}
    (given : outfitsOf attempts = pipelineOutfits others pipes source steps) :
    List.Forall₂ Attempt.Runs attempts steps := by
  fun_induction pipelineOutfits others pipes source steps generalizing attempts with
  | case1 =>
      obtain rfl : attempts = [] := List.map_eq_nil_iff.1 given
      exact .nil
  | case2 pipes source last =>
      obtain ⟨attempt, rest, rfl, outfit, none⟩ := List.map_eq_cons_iff.1 given
      obtain rfl : rest = [] := List.map_eq_nil_iff.1 none
      exact .cons ⟨congrArg Outfit.program outfit, congrArg Outfit.arguments outfit⟩ .nil
  | case3 pipes source step next rest inductionHypothesis =>
      obtain ⟨attempt, others, rfl, outfit, more⟩ := List.map_eq_cons_iff.1 given
      exact .cons ⟨congrArg Outfit.program outfit, congrArg Outfit.arguments outfit⟩
        (inductionHypothesis more)

/-- Once the steps of a job are started, the attempts to start them are the last of the table. -/
structure JobBegun (endings : Ending → Prop) (start : Nat) (job : Job)
    (started : List StartedStep) (table : List Attempt) : Prop where
  begun : Begun endings start started table
  runs : List.Forall₂ Attempt.Runs (table.drop start) job.steps

theorem JobBegun.of_ages {endings : Ending → Prop} {start : Nat} {job : Job}
    {started : List StartedStep} {table after : List Attempt}
    (begun : JobBegun endings start job started table) (ages : Ages endings table after) :
    JobBegun endings start job started after := by
  refine ⟨begun.begun.of_ages ages, ?_⟩
  induction ages with
  | refl => exact begun.runs
  | tail _ turned inductionHypothesis =>
      obtain ⟨pid, ending, -, turns⟩ := turned
      rcases turns.drop start with same | inside
      · rw [same]
        exact inductionHypothesis
      · exact inside.runs inductionHypothesis

private theorem drop_outfits {before after : List Attempt} {outfits : List Outfit}
    (more : outfitsOf after = outfitsOf before ++ outfits) :
    outfitsOf (after.drop before.length) = outfits := by
  unfold outfitsOf at more ⊢
  rw [List.map_drop, more, List.drop_left']
  exact List.length_map _

theorem startSteps_begins {endings : Ending → Prop} (job : Job) (streams : Redirections)
    {kernel : Kernel} (orderly : Orderly endings kernel.attempts) :
    (Kernel.world endings).Ensures (fun _ _ => True) (startSteps job streams).run
      (fun outcome after => ∀ started, outcome = .ok started →
        JobBegun endings kernel.attempts.length job started after.attempts) kernel := by
  unfold startSteps
  split
  · refine (startPipeline_begins job.steps_ne_nil
      (show Holds kernel.handles none kernel.handles from rfl) (Begun.nothing orderly)).mono ?_
    rintro outcome after reached started rfl
    obtain ⟨-, outfits, begun, -⟩ := reached
    exact ⟨begun, runs_of_outfits (drop_outfits outfits)⟩
  · rename_i single
    have alone : job.steps = [job.first] := by
      have none : job.rest = [] := by
        simpa [Job.isPipeline] using single
      unfold Job.steps
      rw [none]
    rw [ensures_run_bind]
    refine (startStep_begins job.first streams kernel).mono ?_
    rintro (stop | told) after begins
    · exact fun started equal => nomatch equal
    · obtain ⟨-, outfits, -, enters⟩ := begins
      rw [afterAction_ok, ensures_run_bind, ensures_run_lift]
      have begun := enters kernel.attempts.length [] (Begun.nothing orderly)
      have runs : List.Forall₂ Attempt.Runs (after.attempts.drop kernel.attempts.length)
          job.steps := by
        obtain ⟨attempt, rest, equal, outfit, none⟩ :=
          List.map_eq_cons_iff.1 (drop_outfits outfits)
        obtain rfl : rest = [] := List.map_eq_nil_iff.1 none
        rw [equal, alone]
        exact .cons ⟨congrArg Outfit.program outfit, congrArg Outfit.arguments outfit⟩ .nil
      refine (ages_of_plain (Redirections.close_plain streams) after).mono ?_
      rintro _ closed ages started equal
      cases equal
      exact JobBegun.of_ages ⟨begun, runs⟩ ages

end JobControl
