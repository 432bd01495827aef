import JobControl.Proofs.World
import JobControl.Session.Basic
/-!
# What actions and activities achieve

The rules by which a condition on the outcome of an action, or of an activity on a session, is
carried back over the steps it is made of.  An action that stops, stops what follows it.
-/

namespace JobControl

/-- What is left of an activity whose failures are told when it has come to its outcome. -/
def Activity.settle : Except Stop Unit → Activity Unit
  | .ok result => pure result
  | .error (.failure failure) =>
      if failure.isFatal then throw (.failure failure)
      else Activity.ofAction (Action.complain failure)
  | .error (.breach breach) => throw (.breach breach)

theorem Activity.perform_report (activity : Activity Unit) (session : Session) :
    (Activity.report activity).perform session =
      activity.perform session >>= fun outcome => (settle outcome.1).perform outcome.2 := by
  refine congrArg (activity.perform session >>= ·) (funext fun outcome => ?_)
  obtain ⟨(failure | breach) | result, changed⟩ := outcome <;> rfl

namespace World

variable {σ α β : Type} {world : World σ} {fits : Call → σ → Prop}

/-! ## Actions -/

/-- What follows the outcome of an action: the rest, or nothing if it stopped. -/
def afterAction (world : World σ) (fits : Call → σ → Prop) (next : α → Action β)
    (post : Except Stop β → σ → Prop) : Except Stop α → σ → Prop
  | .ok result, state => world.Ensures fits (next result).run post state
  | .error stop, state => post (.error stop) state

@[simp]
theorem afterAction_ok (next : α → Action β) (post : Except Stop β → σ → Prop) (result : α)
    (state : σ) :
    world.afterAction fits next post (.ok result) state ↔
      world.Ensures fits (next result).run post state :=
  Iff.rfl

theorem ensures_run_bind (action : Action α) (next : α → Action β)
    (post : Except Stop β → σ → Prop) (state : σ) :
    world.Ensures fits (action >>= next).run post state ↔
      world.Ensures fits action.run (world.afterAction fits next post) state := by
  rw [ExceptT.run_bind, ensures_bind]
  constructor
  · refine fun ensured => ensured.mono fun outcome after reached => ?_
    cases outcome with
    | ok result => exact reached
    | error stop => exact reached
  · refine fun ensured => ensured.mono fun outcome after reached => ?_
    cases outcome with
    | ok result => exact reached
    | error stop => exact reached

theorem ensures_run_lift (program : Program α) (post : Except Stop α → σ → Prop) (state : σ) :
    world.Ensures fits (liftM program : Action α).run post state ↔
      world.Ensures fits program (fun result after => post (.ok result) after) state := by
  change world.Ensures fits (program >>= fun result => pure (.ok result)) post state ↔ _
  rw [ensures_bind]
  rfl

theorem ensures_run_ask (call : Call) (post : Except Stop call.Answer → σ → Prop) (state : σ) :
    world.Ensures fits (Action.ask call).run post state ↔
      ∀ asked, world.Drifts state asked →
        fits call asked ∧
          ∀ given after, world.answers call asked given after → post (.ok given) after := by
  change world.Ensures fits (liftM (Program.ask call) : Action call.Answer).run post state ↔ _
  rw [ensures_run_lift, ensures_ask]

/-! ## Activities -/

/-- However the world answers, an activity performed on a session makes calls that fit and comes to
an outcome, a session and a state that satisfy a condition. -/
def Achieves (world : World σ) (fits : Call → σ → Prop) (activity : Activity α)
    (session : Session) (post : Except Stop α → Session → σ → Prop) (state : σ) : Prop :=
  world.Ensures fits (activity.perform session)
    (fun outcome after => post outcome.1 outcome.2 after) state

/-- What follows the outcome of an activity: the rest, or nothing if it stopped. -/
def afterActivity (world : World σ) (fits : Call → σ → Prop) (next : α → Activity β)
    (post : Except Stop β → Session → σ → Prop) : Except Stop α → Session → σ → Prop
  | .ok result, session, state => world.Achieves fits (next result) session post state
  | .error stop, session, state => post (.error stop) session state

@[simp]
theorem afterActivity_ok (next : α → Activity β) (post : Except Stop β → Session → σ → Prop)
    (result : α) (session : Session) (state : σ) :
    world.afterActivity fits next post (.ok result) session state ↔
      world.Achieves fits (next result) session post state :=
  Iff.rfl

@[simp]
theorem afterActivity_error (next : α → Activity β) (post : Except Stop β → Session → σ → Prop)
    (stop : Stop) (session : Session) (state : σ) :
    world.afterActivity fits next post (.error stop) session state ↔
      post (.error stop) session state :=
  Iff.rfl

section Rules

variable (session : Session) (state : σ)

@[simp]
theorem achieves_pure (result : α) (post : Except Stop α → Session → σ → Prop) :
    world.Achieves fits (pure result : Activity α) session post state ↔
      post (.ok result) session state :=
  Iff.rfl

@[simp]
theorem achieves_throw (stop : Stop) (post : Except Stop α → Session → σ → Prop) :
    world.Achieves fits (throw stop : Activity α) session post state ↔
      post (.error stop) session state :=
  Iff.rfl

@[simp]
theorem achieves_fail (failure : Failure) (post : Except Stop α → Session → σ → Prop) :
    world.Achieves fits (Activity.fail failure : Activity α) session post state ↔
      post (.error (.failure failure)) session state :=
  Iff.rfl

@[simp]
theorem achieves_get (post : Except Stop Session → Session → σ → Prop) :
    world.Achieves fits (get : Activity Session) session post state ↔
      post (.ok session) session state :=
  Iff.rfl

@[simp]
theorem achieves_set (changed : Session) (post : Except Stop PUnit → Session → σ → Prop) :
    world.Achieves fits (set changed : Activity PUnit) session post state ↔
      post (.ok PUnit.unit) changed state :=
  Iff.rfl

@[simp]
theorem achieves_modify (change : Session → Session)
    (post : Except Stop PUnit → Session → σ → Prop) :
    world.Achieves fits (modify change : Activity PUnit) session post state ↔
      post (.ok PUnit.unit) (change session) state :=
  Iff.rfl

theorem achieves_bind (activity : Activity α) (next : α → Activity β)
    (post : Except Stop β → Session → σ → Prop) :
    world.Achieves fits (activity >>= next) session post state ↔
      world.Achieves fits activity session (world.afterActivity fits next post) state := by
  unfold Achieves Activity.perform
  rw [ExceptT.run_bind, StateT.run_bind, ensures_bind]
  constructor
  · refine fun ensured => ensured.mono fun outcome after reached => ?_
    obtain ⟨result | result, changed⟩ := outcome
    · exact reached
    · exact reached
  · refine fun ensured => ensured.mono fun outcome after reached => ?_
    obtain ⟨result | result, changed⟩ := outcome
    · exact reached
    · exact reached

private theorem achieves_ofAction (action : Action α) (post : Except Stop α → Session → σ → Prop) :
    world.Achieves fits (Activity.ofAction action) session post state ↔
      world.Ensures fits action.run (fun outcome after => post outcome session after) state := by
  change world.Ensures fits (action.run >>= fun outcome => pure (outcome, session))
    (fun outcome after => post outcome.1 outcome.2 after) state ↔ _
  rw [ensures_bind]
  rfl

theorem achieves_lift (action : Action α) (post : Except Stop α → Session → σ → Prop) :
    world.Achieves fits (liftM action : Activity α) session post state ↔
      world.Ensures fits action.run (fun outcome after => post outcome session after) state :=
  achieves_ofAction session state action post

/-- What follows an activity whose failures are told: a failure that is not fatal is told, and
nothing is left of it. -/
def afterReported (world : World σ) (fits : Call → σ → Prop)
    (post : Except Stop Unit → Session → σ → Prop) : Except Stop Unit → Session → σ → Prop
  | .ok result, session, state => post (.ok result) session state
  | .error (.breach breach), session, state => post (.error (.breach breach)) session state
  | .error (.failure failure), session, state =>
      if failure.isFatal then post (.error (.failure failure)) session state
      else
        world.Ensures fits (Action.complain failure).run
          (fun outcome after => post outcome session after) state

private theorem achieves_report (activity : Activity Unit)
    (post : Except Stop Unit → Session → σ → Prop) :
    world.Achieves fits (Activity.report activity) session post state ↔
      world.Achieves fits activity session (world.afterReported fits post) state := by
  have handled :
      ∀ failure changed after,
        world.Achieves fits
            (if failure.isFatal then throw (.failure failure)
              else Activity.ofAction (Action.complain failure)) changed post after ↔
          world.afterReported fits post (.error (.failure failure)) changed after := by
    intro failure changed after
    by_cases fatal : failure.isFatal
    · simp only [fatal, if_true, achieves_throw, afterReported]
    · simp only [fatal, Bool.false_eq_true, if_false, achieves_ofAction, afterReported]
  unfold Achieves
  rw [Activity.perform_report, ensures_bind]
  constructor
  · refine fun ensured => ensured.mono fun outcome after reached => ?_
    obtain ⟨(failure | breach) | result, changed⟩ := outcome
    · exact (handled failure changed after).1 reached
    · exact reached
    · exact reached
  · refine fun ensured => ensured.mono fun outcome after reached => ?_
    obtain ⟨(failure | breach) | result, changed⟩ := outcome
    · exact (handled failure changed after).2 reached
    · exact reached
    · exact reached

end Rules

/-- What an activity achieves, it achieves with its failures told, if telling of one keeps it. -/
theorem Achieves.report {activity : Activity Unit} {session : Session} {state : σ}
    {post : Except Stop Unit → Session → σ → Prop}
    (achieved : world.Achieves fits activity session post state)
    (complains : ∀ failure changed after, failure.isFatal = false →
      post (.error (.failure failure)) changed after →
        world.Ensures fits (Action.complain failure).run
          (fun outcome last => post outcome changed last) after) :
    world.Achieves fits (Activity.report activity) session post state := by
  rw [achieves_report]
  refine Ensures.mono achieved ?_
  rintro ⟨(failure | breach) | _, changed⟩ after reached
  · dsimp only [afterReported]
    by_cases fatal : failure.isFatal = true
    · rw [if_pos fatal]
      exact reached
    · rw [if_neg fatal]
      exact complains failure changed after (by simpa using fatal) reached
  · exact reached
  · exact reached

theorem Achieves.mono {activity : Activity α} {session : Session} {state : σ}
    {post weaker : Except Stop α → Session → σ → Prop}
    (achieved : world.Achieves fits activity session post state)
    (weaken : ∀ outcome changed after, post outcome changed after →
      weaker outcome changed after) :
    world.Achieves fits activity session weaker state :=
  Ensures.mono achieved fun outcome after => weaken outcome.1 outcome.2 after

end World

end JobControl
