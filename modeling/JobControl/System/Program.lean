import JobControl.System.Call
/-!
# Programs of calls

A program is a tree: it is done with a result, or it makes a call and goes on as the answer tells.
Running it asks a system for the answers; a program thus says what is done under every answer that
the system may give.  An action is a program that may stop with a failure or a breach.
-/

namespace JobControl

/-- A computation that makes calls to the system. -/
inductive Program (α : Type) where
  | done (result : α)
  | step (call : Call) (next : call.Answer → Program α)

namespace Program

variable {α β γ σ : Type}

def andThen : Program α → (α → Program β) → Program β
  | .done result, next => next result
  | .step call rest, next => .step call fun answer => (rest answer).andThen next

instance : Monad Program where
  pure := .done
  bind := andThen

@[simp]
theorem done_bind (result : α) (next : α → Program β) :
    Program.done result >>= next = next result :=
  rfl

@[simp]
theorem step_bind (call : Call) (rest : call.Answer → Program α) (next : α → Program β) :
    Program.step call rest >>= next = .step call fun answer => rest answer >>= next :=
  rfl

theorem bind_done (program : Program α) :
    program >>= .done = program := by
  induction program with
  | done => rfl
  | step call rest inductionHypothesis =>
      simp only [step_bind, inductionHypothesis]

theorem bind_assoc (program : Program α) (f : α → Program β) (g : β → Program γ) :
    program >>= f >>= g = program >>= fun result => f result >>= g := by
  induction program with
  | done => rfl
  | step call rest inductionHypothesis =>
      simp only [step_bind, inductionHypothesis]

instance : LawfulMonad Program :=
  LawfulMonad.mk' Program bind_done (fun _ _ => rfl) bind_assoc

def ask (call : Call) : Program call.Answer :=
  .step call .done

/-- Runs a program on a system that answers calls and changes its state by them. -/
def run (answer : (call : Call) → σ → call.Answer × σ) : Program α → σ → α × σ
  | .done result, state => (result, state)
  | .step call next, state =>
      let (given, state) := answer call state
      (next given).run answer state

end Program

/-- A program that may stop before it has a result. -/
abbrev Action (α : Type) : Type :=
  ExceptT Stop Program α

namespace Action

variable {α : Type}

def ask (call : Call) : Action call.Answer :=
  ExceptT.lift (Program.ask call)

def fail (failure : Failure) : Action α :=
  throw (.failure failure)

/-- Writes a notice; the caller has nothing else to do if it cannot be written. -/
def notice (outlet : Outlet) (text : String) : Action Unit := do
  match ← ask (.write outlet text) with
  | .ok _ => pure ()
  | .error reason => throw (.breach (.noticeLost outlet reason))

/-- Writes text that belongs to the result of an action, which fails without it. -/
def write (outlet : Outlet) (text : String) : Action Unit := do
  match ← ask (.write outlet text) with
  | .ok _ => pure ()
  | .error reason => fail (.access (.refused reason))

def complain (failure : Failure) : Action Unit :=
  notice .errors s!"jobsh: {failure.message}\n"

end Action

end JobControl
