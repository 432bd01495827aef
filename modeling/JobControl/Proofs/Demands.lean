import JobControl.Proofs.Unguarded
import JobControl.Proofs.Visits
/-!
# Waiting on demand

Started steps are waited for as is demanded, one at a place or all of them, any number of times and
in any order, whatever comes of it.  Every demand is served by visits, and all visits together are
one tour; so the process of a step is waited for until a wait brings its status, and never again.

The same is done with processes whose fields are independent of one another: no wait panics, and a
process is completed if and only if its status is known.
-/

namespace JobControl

open World

/-! ## Demands -/

/-- What is demanded of started steps: to wait for the one at a place, or for all of them. -/
inductive Demand where
  | one (place : Nat)
  | all
  deriving DecidableEq, Repr

/-- Waits as is demanded, and gives the status of the last step waited for.  If no step stands at a
place, there is nothing to wait for. -/
def Demand.serve (steps : List StartedStep) :
    Demand → Program (Except Stop (Option Int) × List StartedStep)
  | .one place =>
      match steps[place]? with
      | none => pure (.ok none, steps)
      | some step => do
          let (result, waited) ← step.wait
          pure (result.map some, steps.set place waited)
  | .all => waitForAll steps

/-- Serves demands one after the other, whatever comes of them, and gives the replies. -/
def serveDemands : List Demand → List StartedStep →
    Program (List (Except Stop (Option Int)) × List StartedStep)
  | [], steps => pure ([], steps)
  | demand :: rest, steps => do
      let (reply, waited) ← demand.serve steps
      let (replies, left) ← serveDemands rest waited
      pure (reply :: replies, left)

/-! ## Rounds -/

/-- A demand and what is done for it: the visits, the reply, and the steps before and after. -/
structure Round where
  demand : Demand
  before : List StartedStep
  visits : List Visit
  reply : Except Stop (Option Int)
  after : List StartedStep

namespace Round

/-- The step at a place is visited, and the reply is what the visit brings; if no step stands there,
nothing is done. -/
def VisitsOne (round : Round) (place : Nat) : Prop :=
  (∃ visit, round.visits = [visit] ∧ visit.place = place ∧ round.reply = visit.result.map some) ∨
    round.before.length ≤ place ∧ round.visits = [] ∧ round.reply = .ok none

/-- The steps are visited in order until a visit fails. -/
structure VisitsAll (round : Round) : Prop where
  inOrder : round.visits.map Visit.place = List.range round.visits.length
  /-- The step at which a visit fails, and those that are not visited, are left as they were. -/
  untouched : ∀ place, (∀ visit ∈ round.visits, visit.place = place → ¬visit.Succeeds) →
    round.after[place]? = round.before[place]?
  concludes : Concludes round.visits round.after round.reply
  none_iff : round.reply = .ok none ↔ round.before = []

/-- The visits lead from the steps before to the steps after, and are those that were demanded. -/
structure IsServed (round : Round) : Prop where
  tour : Tour round.before round.visits round.after
  asDemanded :
    match round.demand with
    | .one place => round.VisitsOne place
    | .all => round.VisitsAll

end Round

/-- Rounds one after the other, and the steps before and after them. -/
inductive Rounds : List StartedStep → List Round → List StartedStep → Prop
  | nothing {steps : List StartedStep} : Rounds steps [] steps
  | round {round : Round} {rest : List Round} {left : List StartedStep} :
      round.IsServed →
      Rounds round.after rest left →
      Rounds round.before (round :: rest) left

/-- The visits of all rounds are one tour. -/
theorem Rounds.tour {steps left : List StartedStep} {rounds : List Round}
    (served : Rounds steps rounds left) : Tour steps (rounds.flatMap Round.visits) left := by
  induction served with
  | nothing => exact .nothing
  | round first _ inductionHypothesis => exact first.tour.append inductionHypothesis

private theorem Demand.serve_isServed (demand : Demand) (steps : List StartedStep)
    (before : List Answered) :
    World.recording.Ensures (fun _ _ => True) (demand.serve steps)
      (fun result after => ∃ visits : List Visit,
        (Round.mk demand steps visits result.1 result.2).IsServed ∧
          after = before ++ visits.flatMap Visit.calls) before := by
  cases demand with
  | one place =>
      rw [Demand.serve]
      cases there : steps[place]? with
      | none =>
          have beyond : steps.length ≤ place := List.getElem?_eq_none_iff.1 there
          exact ⟨[], ⟨.nothing, .inr ⟨beyond, rfl, rfl⟩⟩, (List.append_nil before).symm⟩
      | some step =>
          dsimp only
          rw [ensures_bind]
          refine (StartedStep.wait_visits there before).mono ?_
          rintro ⟨outcome, waited⟩ after ⟨visit, same, happens, rfl, rfl⟩
          refine ⟨[visit], ⟨.visit happens .nothing, .inl ⟨visit, rfl, same, rfl⟩⟩, ?_⟩
          rw [List.flatMap_singleton]
  | all =>
      refine (waitForAll_tours [] steps before).mono ?_
      rintro ⟨outcome, waited⟩ after ⟨visits, tour, places, concludes, rfl⟩
      have inOrder : visits.map Visit.place = List.range visits.length :=
        places.trans (List.range_eq_range' ).symm
      have noStep : waited = [] ↔ steps = [] := by
        have same : waited.length = steps.length := tour.length_eq
        rw [← List.length_eq_zero_iff, same, List.length_eq_zero_iff]
      exact ⟨visits, ⟨tour, inOrder, fun _ => tour.leaves, concludes,
        concludes.eq_none_iff.trans noStep⟩, rfl⟩

/-- Demands are served in rounds, and the calls made are the waits of their visits. -/
theorem serveDemands_rounds (demands : List Demand) (steps : List StartedStep)
    (before : List Answered) :
    World.recording.Ensures (fun _ _ => True) (serveDemands demands steps)
      (fun result after => ∃ rounds : List Round, Rounds steps rounds result.2 ∧
        rounds.map Round.demand = demands ∧ rounds.map Round.reply = result.1 ∧
        after = before ++ (rounds.flatMap Round.visits).flatMap Visit.calls) before := by
  induction demands generalizing steps before with
  | nil => exact ⟨[], .nothing, rfl, rfl, (List.append_nil before).symm⟩
  | cons demand rest inductionHypothesis =>
      rw [serveDemands, ensures_bind]
      refine (demand.serve_isServed steps before).mono ?_
      rintro ⟨reply, waited⟩ middle ⟨visits, served, rfl⟩
      dsimp only
      rw [ensures_bind]
      refine (inductionHypothesis waited _).mono ?_
      rintro ⟨replies, left⟩ after ⟨rounds, others, demanded, replied, rfl⟩
      refine ⟨⟨demand, steps, visits, reply, waited⟩ :: rounds, .round served others, ?_, ?_, ?_⟩
      · rw [List.map_cons, demanded]
      · rw [List.map_cons, replied]
      · rw [List.flatMap_cons, List.flatMap_append, List.append_assoc]

/-! ## Independent fields -/

namespace Unguarded.Process

def serve (processes : List Process) :
    Demand → ExceptT Panic Program (Except Stop (Option Int) × List Process)
  | .one place =>
      match processes[place]? with
      | none => pure (.ok none, processes)
      | some process => do
          let (result, waited) ← process.wait
          pure (result.map some, processes.set place waited)
  | .all => waitForAll processes

def serveDemands : List Demand → List Process →
    ExceptT Panic Program (List (Except Stop (Option Int)) × List Process)
  | [], processes => pure ([], processes)
  | demand :: rest, processes => do
      let (reply, waited) ← serve processes demand
      let (replies, left) ← serveDemands rest waited
      pure (reply :: replies, left)

private theorem completed_ofStep_iff (step : StartedStep) :
    (ofStep step).completed = true ↔ (ofStep step).status?.isSome = true := by
  unfold ofStep
  cases step.state with
  | running pid => exact iff_of_false Bool.false_ne_true Bool.false_ne_true
  | ended pid status => exact iff_of_true rfl rfl
  | neverStarted status => exact iff_of_true rfl rfl

private theorem serve_ofStep (steps : List StartedStep) (demand : Demand) :
    serve (steps.map ofStep) demand =
      ExceptT.lift (demand.serve steps >>= fun result =>
        pure (result.1, result.2.map ofStep)) := by
  cases demand with
  | one place =>
      rw [serve, Demand.serve, List.getElem?_map]
      cases steps[place]? with
      | none => exact (lift_pure _).symm
      | some step =>
          dsimp only [Option.map_some]
          rw [wait_ofStep]
          simp only [lift_bind, lift_pure, bind_assoc, pure_bind, List.map_set]
  | all => exact waitForAll_ofStep steps

private theorem serveDemands_ofStep (demands : List Demand) (steps : List StartedStep) :
    serveDemands demands (steps.map ofStep) =
      ExceptT.lift (JobControl.serveDemands demands steps >>= fun result =>
        pure (result.1, result.2.map ofStep)) := by
  induction demands generalizing steps with
  | nil => exact (lift_pure _).symm
  | cons demand rest inductionHypothesis =>
      rw [serveDemands, serve_ofStep, JobControl.serveDemands]
      simp only [lift_bind, lift_pure, bind_assoc, pure_bind, inductionHypothesis]

end Unguarded.Process

/-- To start the processes of a job and to wait for them on demand is the same with independent
fields, and does not panic. -/
theorem Unguarded.startSteps_serveDemands (job : Job) (streams : Redirections)
    (demands : List Demand) :
    (startSteps (ofJob job) streams >>= fun processes =>
        ofProgram (Process.serveDemands demands processes)) =
      ExceptT.lift (JobControl.startSteps job streams >>= fun steps =>
        (liftM (JobControl.serveDemands demands steps) : Action _) >>= fun result =>
          pure (result.1, result.2.map Process.ofStep)) := by
  rw [startSteps_ofJob]
  simp only [lift_bind, lift_pure, bind_assoc, pure_bind]
  refine congrArg (_ >>= ·) (funext fun steps => ?_)
  rw [Process.serveDemands_ofStep, ofProgram_lift_map]
  simp only [lift_bind, lift_pure]

/-! ## Collecting once -/

/-- What serving demands on started steps comes to, under any answers. -/
structure CollectsOnce (demands : List Demand) (steps : List StartedStep)
    (result : List (Except Stop (Option Int)) × List StartedStep) (calls : List Answered)
    (rounds : List Round) : Prop where
  served : Rounds steps rounds result.2
  demanded : rounds.map Round.demand = demands
  replied : rounds.map Round.reply = result.1
  /-- The system is asked nothing but to wait, and only by the visits to steps that were started
  and whose status is not known. -/
  asked : calls = (rounds.flatMap Round.visits).flatMap Visit.calls
  /-- After a wait has brought the status of a step, every visit to the step recalls it. -/
  settled : (rounds.flatMap Round.visits).Pairwise Visit.Settles
  once : ∀ place, (rounds.flatMap Round.visits).countP (Visit.collectsAt place) ≤ 1
  completed_iff : ∀ step ∈ result.2, (Unguarded.Process.ofStep step).completed = true ↔
    (Unguarded.Process.ofStep step).status?.isSome = true

/-- Started steps, those of a job or any others, are waited for in any order and any number of
times, whatever the waits bring.  Each demand is answered by visits to the steps that it names, in
order and until one fails; the process of a step is waited for only until a wait succeeds, and from
then on its status is recalled.  The same is done, without panic, with processes of independent
fields, and then the completed ones are those with a status. -/
theorem demands_collect_each_process_once (demands : List Demand) :
    (∀ steps : List StartedStep,
      World.recording.Ensures (fun _ _ => True) (serveDemands demands steps)
        (fun result calls => ∃ rounds, CollectsOnce demands steps result calls rounds) []) ∧
      ∀ (job : Job) (streams : Redirections),
        (Unguarded.startSteps (Unguarded.ofJob job) streams >>= fun processes =>
            Unguarded.ofProgram (Unguarded.Process.serveDemands demands processes)) =
          ExceptT.lift (startSteps job streams >>= fun steps =>
            (liftM (serveDemands demands steps) : Action _) >>= fun result =>
              pure (result.1, result.2.map Unguarded.Process.ofStep)) := by
  refine ⟨fun steps => ?_, fun job streams =>
    Unguarded.startSteps_serveDemands job streams demands⟩
  refine (serveDemands_rounds demands steps []).mono ?_
  rintro ⟨replies, left⟩ calls ⟨rounds, served, demanded, replied, asked⟩
  have settled := served.tour.settles
  exact ⟨rounds, served, demanded, replied, asked, settled, Visit.countP_collectsAt_le_one settled,
    fun step _ => Unguarded.Process.completed_ofStep_iff step⟩

/-- The first wait for a pipeline fails.  Its first process is then waited for again, which a signal
interrupts once, and a wait for all steps recalls two of the statuses. -/
theorem demands_collect_each_process_once_after_failure :
    ∃ (left : List StartedStep) (calls : List Answered) (rounds : List Round),
      CollectsOnce [.all, .one 0, .all]
        [⟨"sort", .running ⟨5⟩⟩, ⟨"nosuch", .neverStarted 127⟩, ⟨"wc", .running ⟨7⟩⟩]
        ([.error (.failure (.waitFailed 5)), .ok (some 3), .ok (some 137)], left) calls rounds ∧
      calls.map Answered.call = [.bound .waits, .wait ⟨5⟩, .bound .waits, .wait ⟨5⟩, .wait ⟨5⟩,
        .bound .waits, .wait ⟨7⟩] ∧
      left.map StartedStep.status? = [some 3, some 127, some 137] := by
  let demands : List Demand := [.all, .one 0, .all]
  let steps : List StartedStep :=
    [⟨"sort", .running ⟨5⟩⟩, ⟨"nosuch", .neverStarted 127⟩, ⟨"wc", .running ⟨7⟩⟩]
  let left : List StartedStep :=
    [⟨"sort", .ended ⟨5⟩ 3⟩, ⟨"nosuch", .neverStarted 127⟩, ⟨"wc", .ended ⟨7⟩ 137⟩]
  let replies : List (Except Stop (Option Int)) :=
    [.error (.failure (.waitFailed 5)), .ok (some 3), .ok (some 137)]
  have run : World.recording.Leads ⟨serveDemands demands steps, []⟩ ⟨.done (replies, left),
      [⟨.bound .waits, 0⟩, ⟨.wait ⟨5⟩, .error .invalidArgument⟩,
        ⟨.bound .waits, 1⟩, ⟨.wait ⟨5⟩, .error .interrupted⟩, ⟨.wait ⟨5⟩, .ok (.ended (.exited 3))⟩,
        ⟨.bound .waits, 4⟩, ⟨.wait ⟨7⟩, .ok (.ended (.killed 9))⟩]⟩ := by
    refine Leads.answer 0 rfl (Leads.answer (.error .invalidArgument) rfl ?_)
    refine Leads.answer 1 rfl (Leads.answer (.error .interrupted) rfl ?_)
    refine Leads.answer (.ok (.ended (.exited 3))) rfl ?_
    exact Leads.answer 4 rfl (Leads.answer (.ok (.ended (.killed 9))) rfl .refl)
  obtain ⟨calls, drifts, rounds, collects⟩ :=
    ((demands_collect_each_process_once demands).1 steps).result run
  obtain rfl := recording_drifts_iff.1 drifts
  exact ⟨_, _, rounds, collects, rfl, rfl⟩

end JobControl
