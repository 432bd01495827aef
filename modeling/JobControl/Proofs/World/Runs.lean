import JobControl.Proofs.World.Activity
/-!
# Runs from the beginning to the outcome

A run of a composed program is a run of its first part and, from where that came to, a run of the
rest.  For activities this is said of a session and a state of the world together; a stop of the
first part is the outcome of the whole.
-/

namespace JobControl

open Relation

namespace World

variable {σ α β : Type} {world : World σ}

/-! ## Programs -/

/-- A run of a program to its result. -/
def Comes (world : World σ) (program : Program α) (before : σ) (result : α) (after : σ) : Prop :=
  world.Leads ⟨program, before⟩ ⟨.done result, after⟩

/-- What happens before the first call may have happened before the run. -/
theorem Comes.of_drifts {program : Program α} {result : α} {before middle after : σ}
    (run : world.Comes program middle result after) (drift : world.Drifts before middle) :
    world.Comes program before result after := by
  unfold Drifts at drift
  induction drift using ReflTransGen.head_induction_on with
  | refl => exact run
  | head stirred _ inductionHypothesis => exact Leads.stir stirred inductionHypothesis

/-- What happens after the last answer may still have happened during the run. -/
theorem Comes.drifts {program : Program α} {result : α} {before middle after : σ}
    (run : world.Comes program before result middle) (drift : world.Drifts middle after) :
    world.Comes program before result after := by
  induction drift with
  | refl => exact run
  | tail _ stirred inductionHypothesis => exact inductionHypothesis.tail (.stir stirred)

theorem comes_done_iff {given result : α} {before after : σ} :
    world.Comes (.done given) before result after ↔
      result = given ∧ world.Drifts before after := by
  constructor
  · intro run
    have kept : ∀ scene : Scene σ α, world.Leads ⟨.done given, before⟩ scene →
        scene.program = .done given ∧ world.Drifts before scene.state := by
      intro scene leads
      induction leads with
      | refl => exact ⟨rfl, ReflTransGen.refl⟩
      | tail _ step inductionHypothesis =>
          obtain ⟨same, drift⟩ := inductionHypothesis
          cases step with
          | stir stirred => exact ⟨same, drift.tail stirred⟩
          | answer given => cases same
    obtain ⟨same, drift⟩ := kept _ run
    cases same
    exact ⟨rfl, drift⟩
  · rintro ⟨rfl, drift⟩
    exact Comes.drifts ReflTransGen.refl drift

theorem comes_step_iff {call : Call} {next : call.Answer → Program α} {result : α}
    {before after : σ} :
    world.Comes (.step call next) before result after ↔
      ∃ asked given answered, world.Drifts before asked ∧
        world.answers call asked given answered ∧
        world.Comes (next given) answered result after := by
  constructor
  · intro run
    generalize start : (⟨.step call next, before⟩ : Scene σ α) = scene at run
    unfold Comes at run
    rw [start] at run
    induction run using ReflTransGen.head_induction_on generalizing before with
    | refl => cases start
    | head step rest inductionHypothesis =>
        subst start
        cases step with
        | stir stirred =>
            obtain ⟨asked, given, answered, drift, answers, later⟩ := inductionHypothesis rfl
            exact ⟨asked, given, answered, drift.head stirred, answers, later⟩
        | answer answers => exact ⟨before, _, _, ReflTransGen.refl, answers, rest⟩
  · rintro ⟨asked, given, answered, drift, answers, later⟩
    exact Comes.of_drifts (Leads.answer given answers later) drift

theorem comes_bind_iff {program : Program α} {next : α → Program β} {result : β}
    {before after : σ} :
    world.Comes (program >>= next) before result after ↔
      ∃ value middle, world.Comes program before value middle ∧
        world.Comes (next value) middle result after := by
  induction program generalizing before with
  | done value =>
      rw [Program.done_bind]
      constructor
      · exact fun run => ⟨value, before, ReflTransGen.refl, run⟩
      · rintro ⟨_, middle, first, later⟩
        obtain ⟨rfl, drift⟩ := comes_done_iff.1 first
        exact later.of_drifts drift
  | step call rest inductionHypothesis =>
      simp only [Program.step_bind, comes_step_iff, inductionHypothesis]
      constructor
      · rintro ⟨asked, given, answered, drift, answers, value, middle, first, later⟩
        exact ⟨value, middle, ⟨asked, given, answered, drift, answers, first⟩, later⟩
      · rintro ⟨value, middle, ⟨asked, given, answered, drift, answers, first⟩, later⟩
        exact ⟨asked, given, answered, drift, answers, value, middle, first, later⟩

/-! ## Activities -/

/-- A run of an activity to its outcome, from a session in a state of the world. -/
def Performs (world : World σ) (activity : Activity α) (before : Session × σ)
    (outcome : Except Stop α) (after : Session × σ) : Prop :=
  world.Comes (activity.perform before.1) before.2 (outcome, after.1) after.2

variable {before after : Session × σ}

theorem performs_pure_iff {given : α} {outcome : Except Stop α} :
    world.Performs (pure given) before outcome after ↔
      outcome = .ok given ∧ after.1 = before.1 ∧ world.Drifts before.2 after.2 := by
  have pure_performs : world.Performs (pure given) before outcome after ↔
      (outcome, after.1) = (.ok given, before.1) ∧ world.Drifts before.2 after.2 := comes_done_iff
  rw [pure_performs, Prod.mk.injEq, and_assoc]

theorem performs_get_bind_iff {next : Session → Activity β} {outcome : Except Stop β} :
    world.Performs (get >>= next) before outcome after ↔
      world.Performs (next before.1) before outcome after :=
  Iff.rfl

theorem performs_set_bind_iff {changed : Session} {next : PUnit → Activity β}
    {outcome : Except Stop β} :
    world.Performs (set changed >>= next) before outcome after ↔
      world.Performs (next ⟨⟩) (changed, before.2) outcome after :=
  Iff.rfl

theorem performs_modify_iff {change : Session → Session} {outcome : Except Stop PUnit} :
    world.Performs (modify change) before outcome after ↔
      outcome = .ok ⟨⟩ ∧ after.1 = change before.1 ∧ world.Drifts before.2 after.2 := by
  have modify_performs : world.Performs (modify change) before outcome after ↔
      (outcome, after.1) = (.ok ⟨⟩, change before.1) ∧ world.Drifts before.2 after.2 :=
    comes_done_iff
  rw [modify_performs, Prod.mk.injEq, and_assoc]

theorem performs_bind_iff {activity : Activity α} {next : α → Activity β}
    {outcome : Except Stop β} :
    world.Performs (activity >>= next) before outcome after ↔
      (∃ result middle, world.Performs activity before (.ok result) middle ∧
        world.Performs (next result) middle outcome after) ∨
      ∃ stop, outcome = .error stop ∧ world.Performs activity before (.error stop) after := by
  unfold Performs Activity.perform
  rw [ExceptT.run_bind, StateT.run_bind, comes_bind_iff]
  constructor
  · rintro ⟨⟨stop | result, changed⟩, middle, first, later⟩
    · obtain ⟨same, drift⟩ := comes_done_iff.1 later
      rw [Prod.mk.injEq] at same
      obtain ⟨rfl, unchanged⟩ := same
      change after.1 = changed at unchanged
      rw [← unchanged] at first
      exact .inr ⟨stop, rfl, first.drifts drift⟩
    · exact .inl ⟨result, (changed, middle), first, later⟩
  · rintro (⟨result, middle, first, later⟩ | ⟨stop, rfl, first⟩)
    · exact ⟨(.ok result, middle.1), middle.2, first, later⟩
    · exact ⟨(.error stop, after.1), after.2, first, comes_done_iff.2 ⟨rfl, ReflTransGen.refl⟩⟩

/-- What follows an activity counts only where the activity can get. -/
theorem performs_bind_congr {activity : Activity α} {first second : α → Activity β}
    {outcome : Except Stop β}
    (same : ∀ result middle, world.Performs activity before (.ok result) middle →
      (world.Performs (first result) middle outcome after ↔
        world.Performs (second result) middle outcome after)) :
    world.Performs (activity >>= first) before outcome after ↔
      world.Performs (activity >>= second) before outcome after := by
  rw [performs_bind_iff, performs_bind_iff]
  refine or_congr_left (exists_congr fun result => exists_congr fun middle => ?_)
  exact and_congr_right (same result middle)

theorem performs_lift_iff {action : Action α} {outcome : Except Stop α} :
    world.Performs (liftM action) before outcome after ↔
      after.1 = before.1 ∧ world.Comes action.run before.2 outcome after.2 := by
  change world.Comes (action.run >>= fun result => pure (result, before.1)) before.2
    (outcome, after.1) after.2 ↔ _
  rw [comes_bind_iff]
  constructor
  · rintro ⟨result, middle, first, later⟩
    obtain ⟨same, drift⟩ := comes_done_iff.1 later
    rw [Prod.mk.injEq] at same
    obtain ⟨rfl, unchanged⟩ := same
    exact ⟨unchanged, first.drifts drift⟩
  · rintro ⟨unchanged, first⟩
    refine ⟨outcome, after.2, first, comes_done_iff.2 ⟨?_, ReflTransGen.refl⟩⟩
    rw [unchanged]

/-- What follows a call begins where it is answered. -/
theorem performs_ask_bind_iff {call : Call} {next : call.Answer → Activity β}
    {outcome : Except Stop β} :
    world.Performs ((liftM (Action.ask call) : Activity call.Answer) >>= next) before outcome
        after ↔
      ∃ asked given answered, world.Drifts before.2 asked ∧
        world.answers call asked given answered ∧
        world.Performs (next given) (before.1, answered) outcome after :=
  comes_step_iff

theorem comes_lift_iff {program : Program α} {outcome : Except Stop α} {before after : σ} :
    world.Comes (liftM program : Action α).run before outcome after ↔
      ∃ result, outcome = .ok result ∧ world.Comes program before result after := by
  change world.Comes (program >>= fun result => .done (.ok result)) before outcome after ↔ _
  rw [comes_bind_iff]
  constructor
  · rintro ⟨result, middle, first, later⟩
    obtain ⟨rfl, drift⟩ := comes_done_iff.1 later
    exact ⟨result, rfl, first.drifts drift⟩
  · rintro ⟨result, rfl, first⟩
    exact ⟨result, after, first, comes_done_iff.2 ⟨rfl, ReflTransGen.refl⟩⟩

theorem comes_run_bind_iff {action : Action α} {next : α → Action β} {outcome : Except Stop β}
    {before after : σ} :
    world.Comes (action >>= next).run before outcome after ↔
      (∃ result middle, world.Comes action.run before (.ok result) middle ∧
        world.Comes (next result).run middle outcome after) ∨
      ∃ stop, outcome = .error stop ∧ world.Comes action.run before (.error stop) after := by
  rw [ExceptT.run_bind, comes_bind_iff]
  constructor
  · rintro ⟨stop | result, middle, first, later⟩
    · obtain ⟨rfl, drift⟩ := comes_done_iff.1 later
      exact .inr ⟨stop, rfl, first.drifts drift⟩
    · exact .inl ⟨result, middle, first, later⟩
  · rintro (⟨result, middle, first, later⟩ | ⟨stop, rfl, first⟩)
    · exact ⟨.ok result, middle, first, later⟩
    · exact ⟨.error stop, after, first, comes_done_iff.2 ⟨rfl, ReflTransGen.refl⟩⟩

/-- What follows a run may have happened before the last state of the run is looked at. -/
theorem Performs.drifts {activity : Activity α} {outcome : Except Stop α} {session : Session}
    {middle later : σ} (run : world.Performs activity before outcome (session, middle))
    (drift : world.Drifts middle later) :
    world.Performs activity before outcome (session, later) :=
  Comes.drifts run drift

end World

end JobControl
