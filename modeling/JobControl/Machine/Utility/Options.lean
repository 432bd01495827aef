import JobControl.Machine.Process
import JobControl.Text.Numeral
/-!
# Options of utilities

The utilities of the machine take short options, which may stand anywhere before a double dash and
may share a dash; the argument of an option is the rest of its word or the next word.  A utility
that cannot do what it is told says so and fails.
-/

namespace JobControl.Machine

namespace Utility

def name : Utility → String
  | .succeed => "true"
  | .fail => "false"
  | .echo => "echo"
  | .cat => "cat"
  | .sort => "sort"
  | .head => "head"
  | .wc => "wc"
  | .tr => "tr"
  | .printf => "printf"
  | .seq => "seq"
  | .yes => "yes"
  | .sleep => "sleep"
  | .pwd => "pwd"
  | .grep => "grep"
  | .dd => "dd"
  | .mv => "mv"
  | .xargs => "xargs"
  | .shell => "sh"

def all : List Utility :=
  [.succeed, .fail, .echo, .cat, .sort, .head, .wc, .tr, .printf, .seq, .yes, .sleep, .pwd, .grep,
   .dd, .mv, .xargs, .shell]

/-- The status with which a utility fails that cannot do what it is told. -/
def troubleStatus : Utility → Nat
  | .sort => 2
  | .grep => 2
  | .shell => 2
  | .xargs => 127
  | _ => 1

def complain (utility : Utility) (words : String) : Routine :=
  .write 2 s!"{utility.name}: {words}\n".toUTF8 (.exit utility.troubleStatus)

def refuse (utility : Utility) (words : String) : Routine :=
  utility.complain s!"{words}\nTry '{utility.name} --help' for more information."

end Utility

/-- The options given to a utility, in order, and the other words. -/
structure Options where
  given : List (Char × String) := []
  operands : List String := []
  deriving DecidableEq, Repr

namespace Options

def has (options : Options) (letter : Char) : Bool :=
  options.given.any fun option => option.1 = letter

def argument? (options : Options) (letter : Char) : Option String :=
  options.given.reverse.lookup letter

/-- The options of one word.  The result also tells which option wants the next word. -/
def readWord (plain withArgument : List Char) :
    List Char → Except String (List (Char × String) × Option Char)
  | [] => .ok ([], none)
  | letter :: rest =>
      if withArgument.contains letter then
        if rest.isEmpty then .ok ([], some letter)
        else .ok ([(letter, String.ofList rest)], none)
      else if plain.contains letter then do
        let (given, wanting) ← readWord plain withArgument rest
        .ok ((letter, "") :: given, wanting)
      else .error s!"invalid option -- '{letter}'"

def read (plain withArgument : List Char) (words : List String) : Except String Options :=
  match words with
  | [] => .ok {}
  | "--" :: rest => .ok { operands := rest }
  | word :: rest =>
      match word.toList with
      | '-' :: '-' :: _ => .error s!"unrecognized option '{word}'"
      | '-' :: first :: letters => do
          let (given, wanting) ← readWord plain withArgument (first :: letters)
          match wanting, rest with
          | none, rest => do
              let options ← read plain withArgument rest
              .ok { options with given := given ++ options.given }
          | some letter, value :: rest => do
              let options ← read plain withArgument rest
              .ok { options with given := given ++ (letter, value) :: options.given }
          | some letter, [] => .error s!"option requires an argument -- '{letter}'"
      | _ => do
          let options ← read plain withArgument rest
          .ok { options with operands := word :: options.operands }

end Options

end JobControl.Machine
