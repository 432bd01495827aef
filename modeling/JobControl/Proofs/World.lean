import JobControl.System.Program
import Mathlib.Logic.Relation
/-!
# Worlds

A world answers calls without saying which of the possible answers it gives, and something may
happen in it at any moment, also between two calls and while an answer is waited for.  A program
that is run in a world goes through scenes; what is said of every run of a program is a condition
on the state in which it begins, computed along the tree of its calls.
-/

namespace JobControl

open Relation

/-- A system that may answer calls in several ways. -/
structure World (σ : Type) where
  /-- What may happen at any moment. -/
  stirs : σ → σ → Prop
  /-- The answers that may be given to a call in a state, with the state after them. -/
  answers : (call : Call) → σ → call.Answer → σ → Prop

/-- A program under way: what is left of it, and the state of the world. -/
structure Scene (σ α : Type) where
  program : Program α
  state : σ

namespace World

variable {σ α β : Type}

/-- What may happen until the next call is answered. -/
def Drifts (world : World σ) : σ → σ → Prop :=
  ReflTransGen world.stirs

/-- One thing that happens while a program is run. -/
inductive Step (world : World σ) : Scene σ α → Scene σ α → Prop
  | stir {program : Program α} {before after : σ} :
      world.stirs before after →
      Step world ⟨program, before⟩ ⟨program, after⟩
  | answer {call : Call} {next : call.Answer → Program α} {before after : σ}
      {given : call.Answer} :
      world.answers call before given after →
      Step world ⟨.step call next, before⟩ ⟨next given, after⟩

/-- What a program that is run comes to. -/
def Leads (world : World σ) : Scene σ α → Scene σ α → Prop :=
  ReflTransGen world.Step

/-- The states that may follow a state, whatever is asked. -/
def Later (world : World σ) : σ → σ → Prop :=
  ReflTransGen fun before after =>
    world.stirs before after ∨ ∃ call given, world.answers call before given after

/-- However the world answers, every call of a program is made, and waited for, in a state that
fits it, and the result and the state in which it is given satisfy a condition. -/
def Ensures (world : World σ) (fits : Call → σ → Prop) :
    Program α → (α → σ → Prop) → σ → Prop
  | .done result, post, state => post result state
  | .step call next, post, state =>
      ∀ asked, world.Drifts state asked →
        fits call asked ∧
          ∀ given after, world.answers call asked given after →
            Ensures world fits (next given) post after

section Rules

variable {world : World σ} {fits : Call → σ → Prop}

private theorem ensures_step (call : Call) (next : call.Answer → Program α)
    (post : α → σ → Prop) (state : σ) :
    world.Ensures fits (.step call next) post state ↔
      ∀ asked, world.Drifts state asked →
        fits call asked ∧
          ∀ given after, world.answers call asked given after →
            world.Ensures fits (next given) post after :=
  Iff.rfl

theorem ensures_bind (program : Program α) (next : α → Program β)
    (post : β → σ → Prop) (state : σ) :
    world.Ensures fits (program >>= next) post state ↔
      world.Ensures fits program
        (fun result after => world.Ensures fits (next result) post after) state := by
  induction program generalizing state with
  | done result =>
      rfl
  | step call rest inductionHypothesis =>
      simp only [Program.step_bind, ensures_step, inductionHypothesis]

theorem ensures_ask (call : Call) (post : call.Answer → σ → Prop) (state : σ) :
    world.Ensures fits (Program.ask call) post state ↔
      ∀ asked, world.Drifts state asked →
        fits call asked ∧
          ∀ given after, world.answers call asked given after → post given after :=
  Iff.rfl

theorem Ensures.mono {program : Program α} {post weaker : α → σ → Prop} {state : σ}
    (ensured : world.Ensures fits program post state)
    (weaken : ∀ result after, post result after → weaker result after) :
    world.Ensures fits program weaker state := by
  induction program generalizing state with
  | done result =>
      exact weaken result state ensured
  | step call next inductionHypothesis =>
      intro asked drift
      obtain ⟨fit, answered⟩ := ensured asked drift
      exact ⟨fit, fun given after answer =>
        inductionHypothesis given (answered given after answer)⟩

theorem Ensures.fits_mono {weaker : Call → σ → Prop} {program : Program α}
    {post : α → σ → Prop} {state : σ}
    (weaken : ∀ call asked, fits call asked → weaker call asked)
    (ensured : world.Ensures fits program post state) :
    world.Ensures weaker program post state := by
  induction program generalizing state with
  | done result =>
      exact ensured
  | step call next inductionHypothesis =>
      intro asked drift
      obtain ⟨fit, answered⟩ := ensured asked drift
      exact ⟨weaken call asked fit, fun given after answer =>
        inductionHypothesis given (answered given after answer)⟩

theorem Ensures.anyCall {program : Program α} {post : α → σ → Prop} {state : σ}
    (ensured : world.Ensures fits program post state) :
    world.Ensures (fun _ _ => True) program post state :=
  ensured.fits_mono fun _ _ _ => trivial

theorem Ensures.and {otherFits : Call → σ → Prop} {program : Program α}
    {post other : α → σ → Prop} {state : σ}
    (ensured : world.Ensures fits program post state)
    (also : world.Ensures otherFits program other state) :
    world.Ensures fits program
      (fun result after => post result after ∧ other result after) state := by
  induction program generalizing state with
  | done result =>
      exact ⟨ensured, also⟩
  | step call next inductionHypothesis =>
      intro asked drift
      obtain ⟨fit, answered⟩ := ensured asked drift
      exact ⟨fit, fun given after answer =>
        inductionHypothesis given (answered given after answer)
          ((also asked drift).2 given after answer)⟩

theorem Drifts.later {before after : σ} (drift : world.Drifts before after) :
    world.Later before after :=
  ReflTransGen.mono (fun _ _ stirred => Or.inl stirred) _ _ drift

/-- Whatever else is said of a program, the states follow one another. -/
theorem ensures_later (program : Program α) (state : σ) :
    world.Ensures (fun _ _ => True) program
      (fun _ after => world.Later state after) state := by
  suffices general : ∀ reached, world.Later state reached →
      world.Ensures (fun _ _ => True) program
        (fun _ after => world.Later state after) reached from
    general state ReflTransGen.refl
  induction program with
  | done result =>
      exact fun _ later => later
  | step call next inductionHypothesis =>
      intro reached later asked drift
      refine ⟨trivial, fun given after answer => ?_⟩
      have askedLater : world.Later state asked := later.trans (Drifts.later drift)
      exact inductionHypothesis given after
        (askedLater.tail (Or.inr ⟨call, given, answer⟩))

end Rules

/-! ## Granted answers -/

/-- The world that gives an answer only if it is granted. -/
def restrict (world : World σ) (grants : (call : Call) → σ → call.Answer → Prop) : World σ where
  stirs := world.stirs
  answers call before given after :=
    world.answers call before given after ∧ grants call before given

@[simp]
theorem restrict_true (world : World σ) : (world.restrict fun _ _ _ => True) = world := by
  simp [restrict]

theorem restrict_comm (world : World σ)
    (one other : (call : Call) → σ → call.Answer → Prop) :
    (world.restrict one).restrict other = (world.restrict other).restrict one := by
  simp [restrict, and_right_comm]

/-- What is ensured under all answers is ensured under those that are granted. -/
theorem Ensures.restrict {world : World σ} {fits : Call → σ → Prop} {program : Program α}
    {post : α → σ → Prop} {state : σ} (ensured : world.Ensures fits program post state)
    (grants : (call : Call) → σ → call.Answer → Prop) :
    (world.restrict grants).Ensures fits program post state := by
  induction program generalizing state with
  | done result =>
      exact ensured
  | step call next inductionHypothesis =>
      intro asked drift
      obtain ⟨fit, answered⟩ := ensured asked drift
      exact ⟨fit, fun given after answer =>
        inductionHypothesis given (answered given after answer.1)⟩

/-! ## Runs keep what is ensured -/

section Runs

variable {world : World σ} {fits : Call → σ → Prop}

/-- At every scene of a run, what is left of the program ensures what the whole ensured, seen from
the last answer on. -/
theorem Ensures.of_leads {post : α → σ → Prop} {before after : Scene σ α}
    (ensured : world.Ensures fits before.program post before.state)
    (leads : world.Leads before after) :
    ∃ answered, world.Drifts answered after.state ∧
      world.Ensures fits after.program post answered := by
  induction leads with
  | refl =>
      exact ⟨before.state, ReflTransGen.refl, ensured⟩
  | tail _ step inductionHypothesis =>
      obtain ⟨answered, drift, remaining⟩ := inductionHypothesis
      cases step with
      | stir stirred =>
          exact ⟨answered, drift.tail stirred, remaining⟩
      | answer given =>
          exact ⟨_, ReflTransGen.refl, (remaining _ drift).2 _ _ given⟩

theorem Ensures.result {program : Program α} {post : α → σ → Prop} {result : α}
    {before after : σ} (ensured : world.Ensures fits program post before)
    (leads : world.Leads ⟨program, before⟩ ⟨.done result, after⟩) :
    ∃ answered, world.Drifts answered after ∧ post result answered :=
  Ensures.of_leads ensured leads

/-- Whenever a run comes to a call, the call fits. -/
theorem Ensures.fits_of_leads {post : α → σ → Prop} {program : Program α} {call : Call}
    {next : call.Answer → Program α} {before asked : σ}
    (ensured : world.Ensures fits program post before)
    (leads : world.Leads ⟨program, before⟩ ⟨.step call next, asked⟩) : fits call asked := by
  obtain ⟨answered, drifts, remaining⟩ := Ensures.of_leads ensured leads
  exact (remaining asked drifts).1

theorem Step.later {before after : Scene σ α} (step : world.Step before after) :
    world.Later before.state after.state := by
  cases step with
  | stir stirred =>
      exact ReflTransGen.single (Or.inl stirred)
  | answer given =>
      exact ReflTransGen.single (Or.inr ⟨_, _, given⟩)

theorem Leads.later {before after : Scene σ α} (leads : world.Leads before after) :
    world.Later before.state after.state := by
  induction leads with
  | refl =>
      exact ReflTransGen.refl
  | tail _ step inductionHypothesis =>
      exact inductionHypothesis.trans (Step.later step)

theorem Leads.stir {program : Program α} {before middle : σ} {after : Scene σ α}
    (stirs : world.stirs before middle) (rest : world.Leads ⟨program, middle⟩ after) :
    world.Leads ⟨program, before⟩ after :=
  ReflTransGen.head (Step.stir stirs) rest

theorem Leads.answer {call : Call} {next : call.Answer → Program α} {before middle : σ}
    {after : Scene σ α} (given : call.Answer) (answers : world.answers call before given middle)
    (rest : world.Leads ⟨next given, middle⟩ after) :
    world.Leads ⟨.step call next, before⟩ after :=
  ReflTransGen.head (Step.answer answers) rest

theorem Leads.mono {wider : World σ}
    (stirs : ∀ before after, world.stirs before after → wider.stirs before after)
    (answers : ∀ call before given after, world.answers call before given after →
      wider.answers call before given after)
    {before after : Scene σ α} (leads : world.Leads before after) :
    wider.Leads before after := by
  refine ReflTransGen.mono (fun scene next step => ?_) _ _ leads
  cases step with
  | stir stirred =>
      exact Step.stir (stirs _ _ stirred)
  | answer given =>
      exact Step.answer (answers _ _ _ _ given)

/-- A run under granted answers is a run. -/
theorem Leads.of_restrict {grants : (call : Call) → σ → call.Answer → Prop}
    {before after : Scene σ α} (leads : (world.restrict grants).Leads before after) :
    world.Leads before after := by
  have granted : ∀ call before given after,
      (world.restrict grants).answers call before given after →
        world.answers call before given after :=
    fun _ _ _ _ answers => answers.1
  have stirred : ∀ before after, (world.restrict grants).stirs before after →
      world.stirs before after := fun _ _ stirs => stirs
  exact leads.mono stirred granted

/-- What every stir and every answer keeps, every program keeps. -/
theorem ensures_of_kept {holds : σ → Prop}
    (stirred : ∀ before after, world.stirs before after → holds before → holds after)
    (answered : ∀ call before given after, world.answers call before given after →
      holds before → holds after)
    (program : Program α) {state : σ} (initially : holds state) :
    world.Ensures (fun _ _ => True) program (fun _ after => holds after) state := by
  refine (ensures_later program state).mono fun _ after later => ?_
  induction later with
  | refl => exact initially
  | tail _ step kept =>
      rcases step with stirs | ⟨call, given, answers⟩
      · exact stirred _ _ stirs kept
      · exact answered _ _ _ _ answers kept

end Runs

end World

end JobControl
