import JobControl.Machine.Utility.Start
/-!
# Running a program file

A program is named by a path, or by a name that is searched in the directories of `PATH`.  A file
can be run if it is a program of the machine or a script whose first line names its interpreter.
In a search a file that may not be run is passed over, and remembered if nothing else is found.
-/

namespace JobControl.Machine

/-- A program that has been found, with the name under which it runs and its arguments. -/
structure Found where
  utility : Utility
  name : String
  arguments : List RawText
  deriving DecidableEq, Repr

def longestArgument : Nat := 131071

def mostInterpreters : Nat := 5

def mayRun (permissions : Nat) : Bool :=
  permissions &&& 0o111 ≠ 0

/-- The interpreter that the first line of a script names, with the argument that it gives to the
interpreter. -/
def interpreterLine? (content : ByteArray) : Option (String × Option String) :=
  match content.toList with
  | 35 :: 33 :: rest =>
      let line := Text.readLossy (bytesOf ((rest.takeWhile (· ≠ lineFeed)).take 253))
      let isGap (c : Char) : Bool := c = ' ' || c = '\t'
      let words := line.toList.dropWhile isGap
      let path := words.takeWhile fun c => !isGap c
      let argument := (words.drop path.length).dropWhile isGap
      let argument := (argument.reverse.dropWhile isGap).reverse
      if path.isEmpty then none
      else
        some (String.ofList path,
          if argument.isEmpty then none else some (String.ofList argument))
  | _ => none

/-- Finds what runs when a path is run, through at most as many interpreters as said. -/
def findAt (tree : FileTree) (directory : NodeId) (path name : String)
    (arguments : List RawText) : Nat → Except Errno Found
  | 0 => .error .tooManyLinks
  | interpreters + 1 => do
      let node ← tree.find directory path
      match tree.nodes[node]? with
      | some { permissions := permissions, body := .utility utility } =>
          if !mayRun permissions then .error .accessDenied
          else if arguments.any fun argument => longestArgument < argument.size then
            .error .argumentsTooLong
          else .ok ⟨utility, name, arguments⟩
      | some { permissions := permissions, body := .file content } =>
          if !mayRun permissions then .error .accessDenied
          else
            match interpreterLine? content with
            | none => .error .notExecutable
            | some (interpreter, argument) =>
                findAt tree directory interpreter interpreter
                  ((argument.toList ++ [path]).map RawText.ofText ++ arguments) interpreters
      | _ => .error .accessDenied

/-- The directories to search without a `PATH`. -/
def usualPath : String := "/bin:/usr/bin"

/-- The path of a program in a directory of a search; the empty name is the working directory. -/
def pathIn (directory program : String) : String :=
  if directory.isEmpty then program else directory ++ "/" ++ program

/-- Searches directories.  `denied` tells whether a file was passed over that may not be run. -/
def search (tree : FileTree) (here : NodeId) (program : String) (arguments : List RawText)
    (denied : Bool) (last : Errno) : List String → Except Errno Found
  | [] => .error (if denied then .accessDenied else last)
  | directory :: rest =>
      match findAt tree here (pathIn directory program) program arguments mostInterpreters with
      | .ok found => .ok found
      | .error .accessDenied => search tree here program arguments true .accessDenied rest
      | .error .noEntry => search tree here program arguments denied .noEntry rest
      | .error .notDirectory => search tree here program arguments denied .notDirectory rest
      | .error reason => .error reason

def findProgram (machine : Machine) (surroundings : Surroundings) (program : String)
    (arguments : List RawText) : Except Errno Found :=
  if program.isEmpty then .error .noEntry
  else if program.contains '/' then
    findAt machine.tree surroundings.directory program program arguments mostInterpreters
  else if FileTree.longestName < program.utf8ByteSize then .error .nameTooLong
  else
    let path := (surroundings.value? "PATH").getD usualPath
    search machine.tree surroundings.directory program arguments false .noEntry
      (path.splitOn ":")

def routineOf (machine : Machine) (surroundings : Surroundings) (pid : Pid) (found : Found) :
    Routine :=
  found.utility.start machine surroundings pid found.name found.arguments

end JobControl.Machine
