import JobControl.LineEditor
import JobControl.Session.Line
/-!
# Running many lines

A session runs the lines of a text, or those of its standard input, one after the other until one
asks it to end.  Before each line it acts on the signals it has caught.  When the lines are used
up it ends as if asked to.
-/

namespace JobControl.Session

def finish : Activity Unit := do
  if (← get).exitRequested then pure () else exit .output

def runLines : List String → Activity Unit
  | [] => pure ()
  | line :: rest => do
      if (← get).exitRequested then
        pure ()
      else
        Activity.report processSignals
        runLine line
        runLines rest

def runText (text : String) : Activity Unit := do
  runLines (Text.lines text)
  finish

/-- Runs lines of the standard input until one asks the session to end or there are no more, at
most as many as said. -/
def runInputLines (withPrompt : Bool) : Nat → Activity Unit
  | 0 => pure ()
  | lines + 1 => do
      let session ← get
      if session.exitRequested then
        pure ()
      else
        Activity.report processSignals
        match ← (LineEditor.readLine withPrompt : Action (Option String)) with
        | some line => do
            runLine line
            runInputLines withPrompt lines
        | none =>
            if session.settings.showNotices then
              Action.notice .output "exit\n"

def runInput : Activity Unit := do
  let terminal ← (Action.ask (.environment "TERM") : Action (Option RawText))
  let lines ← (Action.ask (.bound .inputLines) : Action Nat)
  runInputLines (LineEditor.showsPrompt terminal) (lines + 1)
  finish

end JobControl.Session
