import JobControl.Failure
import JobControl.Text.Numeral
/-!
# Settings of a session

How many lines the editor remembers, whether notices are shown, and how many background jobs may
be registered at once.
-/

namespace JobControl

/-- How a session behaves. -/
structure Settings where
  history : Nat := 0
  /-- Whether registering a job and the end of the input are announced. -/
  showNotices : Bool := false
  /-- The largest number of background jobs; without it there is no limit. -/
  backgroundLimit : Option Nat := none
  deriving DecidableEq, Repr

namespace Settings

/-- The settings of a session with a user: notices are shown. -/
def interactive (history : Nat) : Settings :=
  { history := history, showNotices := true }

/-- The settings of a session that runs a given text. -/
def noninteractive : Settings := {}

def withBackgroundLimit (settings : Settings) (limit : Option Nat) : Settings :=
  { settings with backgroundLimit := limit }

def describeLimit : Option Nat → String
  | none => "None"
  | some limit => s!"Some({limit})"

def describe (settings : Settings) : String :=
  "ShellConfig \x7b command_history_capacity: " ++ toString settings.history ++
    ", display_messages: " ++ toString settings.showNotices ++
    ", max_background_jobs: " ++ describeLimit settings.backgroundLimit ++ " \x7d"

def largestLimit : Nat := UInt64.size - 1

/-- Reads the limit that the command line asks for; blanks around it do not count. -/
def readLimit (text : String) : Except Failure Nat :=
  match Text.positiveUpTo? largestLimit (Text.trim text).toList with
  | some limit => .ok limit
  | none => .error (.invalidLimit text)

end Settings

end JobControl
