import JobControl.System.Program
/-!
# Redirections of a job

The files that a job of one step names for its streams are opened before anything is started, in
the order input, output, errors.  Two streams of one name are refused before any is opened.  Output
and error files are created if they are missing and written at their end, so what they held stays.
When one cannot be opened, those opened before it are closed again.
-/

namespace JobControl

/-- The opened files of a job; a stream without one is the session's own. -/
structure Redirections where
  input : Option Handle := none
  output : Option Handle := none
  errors : Option Handle := none
  deriving DecidableEq, Repr

namespace Redirections

/-- The files that a job names for its input, its output and the errors of its first step. -/
def names (job : Job) : List String :=
  [job.inputFile, job.outputFile, job.first.errorFile].filterMap id

def conflict (job : Job) : Bool :=
  ¬ (names job).Nodup

def openInput (path : String) : Action Handle := do
  match ← Action.ask (.openInput path) with
  | .ok handle => pure handle
  | .error (.refused .noEntry) => Action.fail (.fileNotFound path)
  | .error fault => Action.fail (.access fault)

/-- Opens an output or error file, which only its owner may read and write if it is created. -/
def openOutput (path : String) : Action Handle := do
  match ← Action.ask (.openOutput path .ownerOnly) with
  | .ok handle => pure handle
  | .error _ => Action.fail (.notWritable path)

def openNamed (opening : String → Action Handle) : Option String → Action (Option Handle)
  | none => pure none
  | some path => do
      let handle ← opening path
      pure (some handle)

def closeHandle : Option Handle → Program Unit
  | none => pure ()
  | some handle => Program.ask (.close handle)

def closingOnStop {α : Type} (held : List (Option Handle)) (action : Action α) : Action α :=
  ExceptT.mk do
    match ← action.run with
    | .ok result => pure (.ok result)
    | .error stop => do
        held.forM closeHandle
        pure (.error stop)

/-- Checks the files that a job names and opens them. -/
def resolve (job : Job) : Action Redirections :=
  if conflict job then
    Action.fail .redirectionConflict
  else do
    let input ← openNamed openInput job.inputFile
    let output ← closingOnStop [input] (openNamed openOutput job.outputFile)
    let errors ← closingOnStop [input, output] (openNamed openOutput job.first.errorFile)
    pure { input := input, output := output, errors := errors }

def close (redirections : Redirections) : Program Unit := do
  closeHandle redirections.input
  closeHandle redirections.output
  closeHandle redirections.errors

end Redirections

end JobControl
