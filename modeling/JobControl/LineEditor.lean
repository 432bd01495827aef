import JobControl.Session.Basic
import JobControl.Text.Cluster
import JobControl.Text.Lines
/-!
# Reading lines without a terminal

Where lines do not come from a terminal, each is taken as it stands, without its ending; a
backspace in it erases the cluster before it.  A line that is not UTF-8 cannot be read.  On kinds
of terminals that cannot be edited on, the prompt is shown before each line.
-/

namespace JobControl.LineEditor

def prompt : String := "jobsh> "

/-- The kinds of terminals on which lines cannot be edited, in small letters. -/
def plainTerminals : List String :=
  ["dumb", "cons25", "emacs"]

/-- Whether the prompt is shown although lines do not come from a terminal. -/
def showsPrompt (terminal : Option RawText) : Bool :=
  match terminal.bind RawText.text? with
  | none => false
  | some terminal => plainTerminals.contains terminal.toLower

/-- Adds clusters to a text whose clusters are given with the last one first; a backspace erases
the last cluster. -/
def eraseInto (kept : List (List Char)) : List (List Char) → List (List Char)
  | [] => kept
  | cluster :: rest =>
      if cluster = ['\x08'] then eraseInto (kept.drop 1) rest
      else eraseInto (cluster :: kept) rest

def applyBackspaces (text : List Char) : List Char :=
  (eraseInto [] (Text.clusters text)).reverse.flatten

def lineOf (text : String) : String :=
  String.ofList (applyBackspaces (Text.dropEnding text.toList))

def decode (bytes : ByteArray) : Except AccessFault String :=
  match String.fromUTF8? bytes with
  | some text => .ok (lineOf text)
  | none => .error .notText

/-- Reads the next line, `none` at the end of the input. -/
def readLine (withPrompt : Bool) : Action (Option String) := do
  if withPrompt then
    match ← Action.ask (.write .output prompt) with
    | .ok _ => pure ()
    | .error reason => Action.fail (.reading (.refused reason))
  match ← Action.ask .readLine with
  | .error fault => Action.fail (.reading fault)
  | .ok none => pure none
  | .ok (some bytes) =>
      match decode bytes with
      | .ok line => pure (some line)
      | .error fault => Action.fail (.reading fault)

end JobControl.LineEditor
