import JobControl.Failure
/-!
# Jobs

A job is what one line asks for: one or more steps joined by pipes, files for the input of the
first and the output of the last, and whether to go on without waiting.
-/

namespace JobControl

/-- One program of a job, with its arguments. -/
structure Step where
  program : String
  arguments : List String := []
  errorFile : Option String := none
  deriving DecidableEq, Repr

/-- The program and its arguments with a space between each two. -/
def Step.commandLine (step : Step) : String :=
  step.arguments.foldl (fun line argument => line ++ " " ++ argument) step.program

/-- What one line asks for. -/
structure Job where
  input : String
  /-- The step that reads the job's input; its program decides whether the job is a builtin. -/
  first : Step
  /-- The steps after it, each reading what the one before it writes. -/
  rest : List Step := []
  inputFile : Option String := none
  outputFile : Option String := none
  /-- Whether the session goes on without waiting for the job. -/
  background : Bool := false
  deriving DecidableEq, Repr

namespace Job

def steps (job : Job) : List Step :=
  job.first :: job.rest

/-- The name that decides whether the job is a builtin. -/
def program (job : Job) : String :=
  job.first.program

def isPipeline (job : Job) : Bool :=
  !job.rest.isEmpty

/-- Whether the job names a file for any of its streams. -/
def hasRedirections (job : Job) : Bool :=
  job.inputFile.isSome || job.outputFile.isSome ||
    job.steps.any fun step => step.errorFile.isSome

theorem steps_ne_nil (job : Job) : job.steps ≠ [] :=
  List.cons_ne_nil _ _

end Job

/-- A job in the making; it may still lack steps. -/
structure JobDraft where
  input : String
  steps : List Step := []
  inputFile : Option String := none
  outputFile : Option String := none
  background : Bool := false
  deriving DecidableEq, Repr

/-- The job that a draft describes, which has to have a step. -/
def JobDraft.complete (draft : JobDraft) : Except Breach Job :=
  match draft.steps with
  | [] => .error .jobWithoutSteps
  | first :: rest =>
      .ok { input := draft.input
            first := first
            rest := rest
            inputFile := draft.inputFile
            outputFile := draft.outputFile
            background := draft.background }

end JobControl
