import JobControl.Job
import JobControl.Token
/-!
# Reading a line as a job

The tokens of a line are taken from left to right.  Words name the program and the arguments of
the step at hand, wherever they stand in it.  A redirection operator takes the word after it as a
file: `<` and `>` for the job, `2>` for the step at hand.  Of several files for one stream the last
counts.  `|` ends a step and `&` ends the line.  A line without tokens is no job.
-/

namespace JobControl.Job

/-- What has been read of a line: the steps before the last `|`, and the step at hand. -/
structure Reading where
  draft : JobDraft
  words : List String := []
  errorFile : Option String := none
  deriving DecidableEq, Repr

namespace Reading

/-- Ends the step at hand, which has to have a word. -/
def finishStep? (reading : Reading) : Option Reading :=
  match reading.words with
  | [] => none
  | program :: arguments =>
      some { draft :=
              { reading.draft with
                steps := reading.draft.steps ++ [⟨program, arguments, reading.errorFile⟩] } }

/-- Takes the tokens of a line one after the other; the result has no step at hand. -/
def take? (reading : Reading) : List Token → Option Reading
  | [] => reading.finishStep?
  | .word text :: rest =>
      take? { reading with words := reading.words ++ [text] } rest
  | .pipe :: rest =>
      reading.finishStep?.bind fun next => take? next rest
  | .input :: .word file :: rest =>
      take? { reading with draft := { reading.draft with inputFile := some file } } rest
  | .output :: .word file :: rest =>
      take? { reading with draft := { reading.draft with outputFile := some file } } rest
  | .errorOutput :: .word file :: rest =>
      take? { reading with errorFile := some file } rest
  | [.background] =>
      take? { reading with draft := { reading.draft with background := true } } []
  | _ => none

end Reading

/-- The job that a line asks for, `none` for a line without tokens.  A line that is no job is
refused as a whole. -/
def parse (line : String) : Except Stop (Option Job) :=
  let input := Text.trim line
  match Token.ofText input with
  | [] => .ok none
  | token :: tokens =>
      match Reading.take? { draft := { input := input } } (token :: tokens) with
      | none => .error (.failure (.badLine input))
      | some reading =>
          match reading.draft.complete with
          | .ok job => .ok (some job)
          | .error breach => .error (.breach breach)

end JobControl.Job
