/-!
# Commands of a script

A script is a command: a program with its words, or commands put together.  Words are kept as they
were written, in parts that know whether they were quoted, since what they stand for depends on
the parameters at the time at which the command is run.
-/

namespace JobControl.Machine.Script

/-- A part of a word. -/
inductive WordPart where
  | text (text : String) (quoted : Bool)
  | parameter (name : String) (quoted : Bool)
  /-- All positional parameters, as one field if `joined` and quoted. -/
  | parameters (joined quoted : Bool)
  deriving DecidableEq, Repr

abbrev Word := List WordPart

/-- How a file is opened for a command. -/
inductive RedirectionKind where
  | read
  | write
  | append
  | duplicate
  deriving DecidableEq, Repr

/-- A file, or another descriptor, for a descriptor of a command. -/
structure FileRedirection where
  descriptor : Nat
  kind : RedirectionKind
  target : Word
  deriving DecidableEq, Repr

/-- A command of a script. -/
inductive Command where
  | nothing
  | simple (line : Nat) (assignments : List (String × Word)) (words : List Word)
      (redirections : List FileRedirection)
  | sequence (first second : Command)
  /-- The second command is run if the first succeeds, or if it fails when `onFailure`. -/
  | connected (onFailure : Bool) (first second : Command)
  | negated (command : Command)
  | choice (test yes no : Command)
  /-- The body is run as long as the test succeeds, or fails when `untilSuccess`. -/
  | loop (untilSuccess : Bool) (test body : Command)
  | each (name : String) (words : Option (List Word)) (body : Command)
  | redirected (body : Command) (redirections : List FileRedirection)
  | subshell (body : Command)
  /-- Each command is run by a process of its own and reads what the one before it writes. -/
  | pipeline (commands : List Command)
  | background (command : Command)

end JobControl.Machine.Script
