import JobControl.Proofs.Kernel
import JobControl.Proofs.World.Activity
/-!
# Visits to started steps

To wait for a step is to visit it.  If its status is known, the visit recalls it and makes no call;
otherwise the process of the step is waited for, again and again until a wait brings something, and
that either settles the step or leaves it as it was.  A settled step stays as it is, and every
later visit recalls its status.  To wait for all steps is a tour: the steps are visited in order,
from the first on, until a visit fails.

The world in which all this happens gives any answer, so that a wait may fail and be made again.
-/

namespace JobControl

open World

/-! ## Recording -/

/-- The world that gives any answer, and records every call with its answer. -/
def World.recording : World (List Answered) where
  stirs _ _ := False
  answers call before given after := after = before ++ [⟨call, given⟩]

theorem recording_drifts_iff {before after : List Answered} :
    World.recording.Drifts before after ↔ after = before := by
  constructor
  · intro drifts
    cases drifts with
    | refl => rfl
    | tail _ stirred => exact stirred.elim
  · rintro rfl
    exact Relation.ReflTransGen.refl

private theorem recording_ensures_ask {call : Call} {post : call.Answer → List Answered → Prop}
    {before : List Answered} (answered : ∀ given, post given (before ++ [⟨call, given⟩])) :
    World.recording.Ensures (fun _ _ => True) (Program.ask call) post before := by
  rw [ensures_ask]
  intro asked drifts
  obtain rfl := recording_drifts_iff.1 drifts
  refine ⟨trivial, ?_⟩
  rintro given after rfl
  exact answered given

/-! ## Visits -/

/-- To put back what stands at a place changes nothing. -/
theorem set_of_there {steps : List StartedStep} {place : Nat} {step : StartedStep}
    (there : steps[place]? = some step) : steps.set place step = steps := by
  obtain ⟨inRange, rfl⟩ := List.getElem?_eq_some_iff.1 there
  exact List.set_getElem_self inRange

/-- Waits for a process are made until one of them brings something, or as often as they may be
made: the answers to them, and what they come to. -/
inductive WaitsFor (pid : Pid) : Nat → List (Except Errno ChildChange) → Except Stop Int → Prop
  | noneLeft : WaitsFor pid 0 [] (.error (.failure (.waitFailed pid.number)))
  | brings {left : Nat} {answer : Except Errno ChildChange} {result : Except Stop Int} :
      waitResult? pid answer = some result →
      WaitsFor pid (left + 1) [answer] result
  | again {left : Nat} {answer : Except Errno ChildChange}
      {answers : List (Except Errno ChildChange)} {result : Except Stop Int} :
      waitResult? pid answer = none →
      WaitsFor pid left answers result →
      WaitsFor pid (left + 1) (answer :: answers) result

/-- A step whose process has been waited for: it has ended, or the wait failed. -/
def StartedStep.afterWait (step : StartedStep) (pid : Pid) : Except Stop Int → StartedStep
  | .ok status => { step with state := .ended pid status }
  | .error _ => step

/-- A visit to the step at a place: its status is recalled, or its process is waited for. -/
inductive Visit where
  | recalled (place : Nat) (status : Int)
  | waited (place : Nat) (pid : Pid) (again : Nat) (answers : List (Except Errno ChildChange))
      (result : Except Stop Int)

namespace Visit

def place : Visit → Nat
  | .recalled place _ => place
  | .waited place _ _ _ _ => place

def result : Visit → Except Stop Int
  | .recalled _ status => .ok status
  | .waited _ _ _ _ result => result

/-- The calls that a visit makes, with their answers: it is asked how often the wait may be made
again, and then waited. -/
def calls : Visit → List Answered
  | .recalled _ _ => []
  | .waited _ pid again answers _ =>
      ⟨.bound .waits, again⟩ :: answers.map fun answer => ⟨.wait pid, answer⟩

def Succeeds (visit : Visit) : Prop :=
  ∃ status, visit.result = .ok status

/-- A visit to one of several steps, and the steps after it.  Only a step that was started and whose
status is not known is waited for. -/
inductive Happens : Visit → List StartedStep → List StartedStep → Prop
  | recalled {steps : List StartedStep} {place : Nat} {step : StartedStep} {status : Int} :
      steps[place]? = some step →
      step.status? = some status →
      Happens (.recalled place status) steps steps
  | waited {steps : List StartedStep} {place : Nat} {step : StartedStep} {pid : Pid} {again : Nat}
      {answers : List (Except Errno ChildChange)} {result : Except Stop Int} :
      steps[place]? = some step →
      step.pid? = some pid →
      step.status? = none →
      WaitsFor pid (again + 1) answers result →
      Happens (.waited place pid again answers result) steps
        (steps.set place (step.afterWait pid result))

/-- If one visit brings the status of a step, another visit to that step recalls it. -/
def Settles (visit again : Visit) : Prop :=
  ∀ status, visit.result = .ok status → again.place = visit.place →
    again = .recalled visit.place status

/-- Whether a visit waits for the process of the step at a place, and succeeds. -/
def collectsAt (place : Nat) : Visit → Bool
  | .recalled _ _ => false
  | .waited visited _ _ _ result => visited = place ∧ result.isOk

private theorem place_and_succeeds_of_collectsAt {place : Nat} {visit : Visit}
    (collects : visit.collectsAt place = true) : visit.place = place ∧ visit.Succeeds := by
  cases visit with
  | recalled visited status => cases collects
  | waited visited pid again answers result =>
      obtain ⟨same, succeeded⟩ := of_decide_eq_true collects
      refine ⟨same, ?_⟩
      cases result with
      | ok status => exact ⟨status, rfl⟩
      | error stop => cases succeeded

/-- Where visits settle what they bring, no process is collected twice. -/
theorem countP_collectsAt_le_one {visits : List Visit} (settle : visits.Pairwise Settles)
    (place : Nat) : visits.countP (collectsAt place) ≤ 1 := by
  induction settle with
  | nil => exact Nat.zero_le 1
  | @cons visit rest settled _ inductionHypothesis =>
      by_cases collects : visit.collectsAt place = true
      · have noOther : rest.countP (collectsAt place) = 0 := by
          rw [List.countP_eq_zero]
          intro again member collectsAgain
          obtain ⟨here, status, brought⟩ := place_and_succeeds_of_collectsAt collects
          have there := (place_and_succeeds_of_collectsAt collectsAgain).1
          have recalls := settled again member status brought (there.trans here.symm)
          simp [recalls, collectsAt] at collectsAgain
        rw [List.countP_cons_of_pos collects]
        omega
      · rw [List.countP_cons_of_neg collects]
        exact inductionHypothesis

variable {visit : Visit} {steps after : List StartedStep}

theorem Happens.length_eq (happens : visit.Happens steps after) :
    after.length = steps.length := by
  cases happens with
  | recalled _ _ => rfl
  | waited _ _ _ _ => exact List.length_set

/-- A step that a visit is not to, or at which it fails, is left as it was. -/
theorem Happens.leaves (happens : visit.Happens steps after) {place : Nat}
    (without : visit.place = place → ¬visit.Succeeds) : after[place]? = steps[place]? := by
  cases happens with
  | recalled _ _ => rfl
  | @waited _ visited step pid again answers result there started unknown waits =>
      by_cases same : visited = place
      · subst same
        have failed := without rfl
        cases result with
        | ok status => exact absurd ⟨status, rfl⟩ failed
        | error stop => rw [StartedStep.afterWait, set_of_there there]
      · exact List.getElem?_set_ne same

/-- A visit that brings a status settles the step. -/
theorem Happens.settled (happens : visit.Happens steps after) {status : Int}
    (brought : visit.result = .ok status) :
    ∃ step, after[visit.place]? = some step ∧ step.status? = some status := by
  cases happens with
  | recalled there known =>
      cases brought
      exact ⟨_, there, known⟩
  | @waited _ place step pid again answers result there started unknown waits =>
      have inRange : place < steps.length := (List.getElem?_eq_some_iff.1 there).1
      obtain rfl : result = .ok status := brought
      exact ⟨_, List.getElem?_set_self inRange, rfl⟩

/-- A visit changes no settled step, and a visit to one recalls its status. -/
theorem Happens.keeps_settled (happens : visit.Happens steps after) {place : Nat}
    {step : StartedStep} {status : Int} (there : steps[place]? = some step)
    (known : step.status? = some status) :
    after[place]? = some step ∧ (visit.place = place → visit = .recalled place status) := by
  cases happens with
  | recalled visited recalls =>
      refine ⟨there, ?_⟩
      rintro rfl
      cases there.symm.trans visited
      cases known.symm.trans recalls
      rfl
  | @waited _ other _ _ _ _ _ visited started unknown waits =>
      have elsewhere : other ≠ place := by
        rintro rfl
        cases there.symm.trans visited
        cases known.symm.trans unknown
      exact ⟨(List.getElem?_set_ne elsewhere).trans there, fun same => absurd same elsewhere⟩

end Visit

/-! ## Tours -/

/-- Visits one after the other, and the steps before and after them. -/
inductive Tour : List StartedStep → List Visit → List StartedStep → Prop
  | nothing {steps : List StartedStep} : Tour steps [] steps
  | visit {steps middle after : List StartedStep} {visit : Visit} {visits : List Visit} :
      visit.Happens steps middle →
      Tour middle visits after →
      Tour steps (visit :: visits) after

namespace Tour

variable {steps middle after : List StartedStep} {visits more : List Visit}

theorem append (tour : Tour steps visits middle) (later : Tour middle more after) :
    Tour steps (visits ++ more) after := by
  induction tour with
  | nothing => exact later
  | visit happens _ inductionHypothesis => exact .visit happens (inductionHypothesis later)

theorem length_eq (tour : Tour steps visits after) : after.length = steps.length := by
  induction tour with
  | nothing => rfl
  | visit happens _ inductionHypothesis => exact inductionHypothesis.trans happens.length_eq

theorem leaves (tour : Tour steps visits after) {place : Nat}
    (without : ∀ visit ∈ visits, visit.place = place → ¬visit.Succeeds) :
    after[place]? = steps[place]? := by
  induction tour with
  | nothing => rfl
  | visit happens _ inductionHypothesis =>
      obtain ⟨first, others⟩ := List.forall_mem_cons.1 without
      exact (inductionHypothesis others).trans (happens.leaves first)

private theorem keeps_settled (tour : Tour steps visits after) {place : Nat} {step : StartedStep}
    {status : Int} (there : steps[place]? = some step) (known : step.status? = some status) :
    after[place]? = some step ∧
      ∀ visit ∈ visits, visit.place = place → visit = .recalled place status := by
  induction tour with
  | nothing => exact ⟨there, by simp⟩
  | visit happens _ inductionHypothesis =>
      obtain ⟨still, first⟩ := happens.keeps_settled there known
      obtain ⟨last, others⟩ := inductionHypothesis still
      exact ⟨last, List.forall_mem_cons.2 ⟨first, others⟩⟩

/-- The status of a step is brought at most once; from then on it is recalled. -/
theorem settles (tour : Tour steps visits after) : visits.Pairwise Visit.Settles := by
  induction tour with
  | nothing => exact List.Pairwise.nil
  | visit happens rest inductionHypothesis =>
      refine List.pairwise_cons.2 ⟨?_, inductionHypothesis⟩
      intro again member status brought same
      obtain ⟨step, there, known⟩ := happens.settled brought
      exact (rest.keeps_settled there known).2 again member same

end Tour

/-- How a tour of all steps ends.  Either every visit succeeded, so that the status of every step is
known, and that of the last one is given, if there is one; or the last visit failed, and its failure
is given. -/
inductive Concludes (visits : List Visit) (waited : List StartedStep) :
    Except Stop (Option Int) → Prop
  | completed :
      visits.length = waited.length →
      (∀ visit ∈ visits, visit.Succeeds) →
      (∀ step ∈ waited, ∃ status, step.status? = some status) →
      Concludes visits waited (.ok (waited.getLast?.bind StartedStep.status?))
  | stopped {earlier : List Visit} {last : Visit} {stop : Stop} :
      visits.length ≤ waited.length →
      visits = earlier ++ [last] →
      (∀ visit ∈ earlier, visit.Succeeds) →
      last.result = .error stop →
      Concludes visits waited (.error stop)

namespace Concludes

variable {visits : List Visit} {waited : List StartedStep} {result : Except Stop (Option Int)}

/-- No status is given if and only if there is no step. -/
theorem eq_none_iff (concludes : Concludes visits waited result) :
    result = .ok none ↔ waited = [] := by
  cases concludes with
  | completed _ _ known =>
      cases last : waited.getLast? with
      | none =>
          obtain rfl := List.getLast?_eq_none_iff.1 last
          exact iff_of_true rfl rfl
      | some step =>
          obtain ⟨status, brought⟩ := known step (List.mem_of_getLast? last)
          refine iff_of_false ?_ ?_
          · rw [Option.bind_some, brought]
            exact fun equal => nomatch Except.ok.inj equal
          · rintro rfl
            cases last
  | stopped within equal _ _ =>
      refine iff_of_false (fun same => nomatch same) ?_
      rintro rfl
      simp [equal] at within

/-- If the visit to the first step fails, no other step is visited. -/
theorem of_failure {visit : Visit} {stop : Stop} (first : StartedStep) (others : List StartedStep)
    (failed : visit.result = .error stop) :
    Concludes [visit] (first :: others) (.error stop) := by
  refine .stopped ?_ (List.nil_append [visit]).symm ?_ failed
  · simp
  · simp

theorem cons (concludes : Concludes visits waited result) {visit : Visit} {step : StartedStep}
    {status : Int} (brought : visit.result = .ok status) (known : step.status? = some status) :
    Concludes (visit :: visits) (step :: waited)
      (result.map fun last => some (last.getD status)) := by
  cases concludes with
  | completed whole succeed settled =>
      have last : (step :: waited).getLast?.bind StartedStep.status? =
          some ((waited.getLast?.bind StartedStep.status?).getD status) := by
        rw [List.getLast?_cons, Option.bind_some]
        cases last : waited.getLast? with
        | none => exact known
        | some step =>
            obtain ⟨other, told⟩ := settled step (List.mem_of_getLast? last)
            simp only [Option.getD_some, Option.bind_some, told]
      rw [Except.map, ← last]
      refine .completed (congrArg (· + 1) whole) ?_ ?_
      · exact List.forall_mem_cons.2 ⟨⟨status, brought⟩, succeed⟩
      · exact List.forall_mem_cons.2 ⟨⟨status, known⟩, settled⟩
  | @stopped earlier last _ within equal succeed failed =>
      have longer : visit :: visits = (visit :: earlier) ++ [last] := by
        rw [equal, List.cons_append]
      refine .stopped (Nat.succ_le_succ within) longer ?_ failed
      exact List.forall_mem_cons.2 ⟨⟨status, brought⟩, succeed⟩

end Concludes

/-! ## Waiting -/

private theorem waitTimes_waits (pid : Pid) (times : Nat) (before : List Answered) :
    World.recording.Ensures (fun _ _ => True) (waitTimes pid times).run
      (fun result after => ∃ answers, WaitsFor pid times answers result ∧
        after = before ++ answers.map fun answer => ⟨.wait pid, answer⟩) before := by
  induction times generalizing before with
  | zero => exact ⟨[], .noneLeft, (List.append_nil before).symm⟩
  | succ times inductionHypothesis =>
      rw [waitTimes, ensures_run_bind]
      refine (ensures_run_lift (Program.ask (.wait pid)) _ _).2 ?_
      refine recording_ensures_ask fun answer => ?_
      rw [afterAction_ok]
      cases brought : waitResult? pid answer with
      | none =>
          refine (inductionHypothesis _).mono ?_
          rintro result after ⟨answers, waits, rfl⟩
          refine ⟨answer :: answers, .again brought waits, ?_⟩
          rw [List.map_cons, List.append_assoc, List.singleton_append]
      | some result => exact ⟨[answer], .brings brought, rfl⟩

private theorem waitFor_waits (pid : Pid) (before : List Answered) :
    World.recording.Ensures (fun _ _ => True) (waitFor pid).run
      (fun result after => ∃ again answers, WaitsFor pid (again + 1) answers result ∧
        after = before ++ ⟨.bound .waits, again⟩ ::
          answers.map fun answer => ⟨.wait pid, answer⟩) before := by
  rw [waitFor, ensures_run_bind]
  refine (ensures_run_lift (Program.ask (.bound .waits)) _ _).2 ?_
  refine recording_ensures_ask fun again => ?_
  rw [afterAction_ok]
  refine (waitTimes_waits pid (again + 1) _).mono ?_
  rintro result after ⟨answers, waits, rfl⟩
  exact ⟨again, answers, waits, by rw [List.append_assoc, List.singleton_append]⟩

/-- To wait for one of several steps is to visit it. -/
theorem StartedStep.wait_visits {steps : List StartedStep} {place : Nat} {step : StartedStep}
    (there : steps[place]? = some step) (before : List Answered) :
    World.recording.Ensures (fun _ _ => True) step.wait
      (fun result after => ∃ visit : Visit, visit.place = place ∧
        visit.Happens steps (steps.set place result.2) ∧ visit.result = result.1 ∧
        after = before ++ visit.calls) before := by
  have recalls : ∀ status, step.status? = some status →
      ∃ visit : Visit, visit.place = place ∧ visit.Happens steps (steps.set place step) ∧
        visit.result = .ok status ∧ before = before ++ visit.calls := by
    intro status known
    refine ⟨.recalled place status, rfl, ?_, rfl, (List.append_nil before).symm⟩
    rw [set_of_there there]
    exact .recalled there known
  unfold StartedStep.wait
  cases state : step.state with
  | ended pid status =>
      exact recalls status (by simp only [StartedStep.status?, state])
  | neverStarted status =>
      exact recalls status (by simp only [StartedStep.status?, state])
  | running pid =>
      have started : step.pid? = some pid := by simp only [StartedStep.pid?, state]
      have unknown : step.status? = none := by simp only [StartedStep.status?, state]
      dsimp only
      rw [ensures_bind]
      refine (waitFor_waits pid before).mono ?_
      rintro result after ⟨again, answers, waits, rfl⟩
      have happens := Visit.Happens.waited there started unknown waits
      cases result with
      | ok status => exact ⟨_, rfl, happens, rfl, rfl⟩
      | error stop => exact ⟨_, rfl, happens, rfl, rfl⟩

/-- To wait for steps that stand behind others is a tour of them in order, until a visit fails. -/
theorem waitForAll_tours (passed rest : List StartedStep) (before : List Answered) :
    World.recording.Ensures (fun _ _ => True) (waitForAll rest)
      (fun result after => ∃ visits : List Visit,
        Tour (passed ++ rest) visits (passed ++ result.2) ∧
          visits.map Visit.place = List.range' passed.length visits.length ∧
          Concludes visits result.2 result.1 ∧
          after = before ++ visits.flatMap Visit.calls) before := by
  induction rest generalizing passed before with
  | nil =>
      exact ⟨[], .nothing, rfl, .completed rfl (by simp) (by simp), (List.append_nil _).symm⟩
  | cons step rest inductionHypothesis =>
      have there : (passed ++ step :: rest)[passed.length]? = some step := by simp
      rw [waitForAll, ensures_bind]
      refine (StartedStep.wait_visits there before).mono ?_
      rintro ⟨outcome, waited⟩ middle ⟨visit, place, happens, result, rfl⟩
      have changed : (passed ++ step :: rest).set passed.length waited =
          passed ++ waited :: rest := by simp [List.set_append_right]
      rw [changed] at happens
      cases outcome with
      | error stop =>
          refine ⟨[visit], .visit happens .nothing, ?_, ?_, ?_⟩
          · simp [place]
          · exact Concludes.of_failure waited rest result
          · rw [List.flatMap_singleton]
      | ok status =>
          have known : waited.status? = some status := by
            obtain ⟨settled, found, known⟩ := happens.settled result
            have stands : (passed ++ waited :: rest)[visit.place]? = some waited := by
              simp [place]
            cases stands.symm.trans found
            exact known
          dsimp only
          rw [ensures_bind]
          refine (inductionHypothesis (passed ++ [waited]) _).mono ?_
          rintro ⟨last, others⟩ after ⟨visits, tour, places, concludes, rfl⟩
          simp only [List.append_assoc, List.singleton_append] at tour
          refine ⟨visit :: visits, .visit happens tour, ?_, concludes.cons result known, ?_⟩
          · rw [List.map_cons, places, place, List.length_cons, List.range'_succ]
            simp
          · rw [List.flatMap_cons, List.append_assoc]

end JobControl
