import JobControl.Machine.Descriptor
import JobControl.Machine.Utility.ByteSet
import JobControl.Machine.Utility.Options
import JobControl.Machine.Script.Read
import JobControl.Text.Utf8
/-!
# Starting a utility

What a utility does first, as its arguments say.  The utilities are small versions of the ones
found on many systems: each has its common options, and refuses others.
-/

namespace JobControl.Machine

namespace Script

def Interpreter.ofText (pid : Pid) (name : String) (parameters : List String) (text : String) :
    Except Nat Interpreter := do
  let command ← read text
  return { name := name, parameters := parameters, scriptPid := pid, frames := [.run command] }

/-- What runs the text of a script; a script that cannot be read fails. -/
def routineOfText (pid : Pid) (name : String) (parameters : List String) (text : String) :
    Routine :=
  match Interpreter.ofText pid name parameters text with
  | .ok interpreter => .script interpreter
  | .error line => .write 2 s!"{name}: {line}: Syntax error\n".toUTF8 (.exit 2)

end Script

namespace Utility

def say (text : String) : Routine :=
  .write 1 text.toUTF8 (.exit 0)

def filtering (utility : Utility) (filter : Filter) (operands : List String) : Routine :=
  .nextInput
    { utility := utility
      filter := filter
      operands := if operands.isEmpty then [none] else operands.map some }

def withOptions (utility : Utility) (plain withArgument : List Char) (arguments : List String)
    (next : Options → Routine) : Routine :=
  match Options.read plain withArgument arguments with
  | .ok options => next options
  | .error words => utility.refuse words

/-! ## Writing -/

/-- The letters of an argument that holds only letters of `echo`. -/
def echoFlags? (argument : String) : Option (List Char) :=
  match argument.toList with
  | '-' :: c :: rest =>
      if (c :: rest).all fun letter => ['n', 'e', 'E'].contains letter then some (c :: rest)
      else none
  | _ => none

/-- Starts `echo`: options stand first, and what follows them is shown. -/
def echoFrom (lineFeed escapes : Bool) : List String → Routine
  | [] => say (Format.plainLine lineFeed [])
  | argument :: rest =>
      match echoFlags? argument with
      | some letters =>
          let lineFeed := lineFeed && !letters.contains 'n'
          let escapes := letters.foldl (fun on c => if c = 'e' then true
            else if c = 'E' then false else on) escapes
          echoFrom lineFeed escapes rest
      | none =>
          say (if escapes then Format.escapedLine lineFeed (argument :: rest)
            else Format.plainLine lineFeed (argument :: rest))

/-- Starts `printf`: the first argument is the format. -/
def startPrintf : List String → Routine
  | [] => refuse .printf "missing operand"
  | "--" :: format :: arguments => shown format arguments
  | format :: arguments => shown format arguments
where
  /-- Shows a format; arguments for which it has no place are told. -/
  shown (format : String) (arguments : List String) : Routine :=
    match arguments with
    | first :: _ =>
        if Format.takesArguments format arguments then say (Format.apply format arguments)
        else
          .write 1 (Format.apply format arguments).toUTF8
            (.write 2
              s!"printf: warning: ignoring excess arguments, starting with '{first}'\n".toUTF8
              (.exit 0))
    | [] => say (Format.apply format [])

def wholeNumber? (text : String) : Option Int :=
  match text.toList with
  | '-' :: digits => (Text.digits? digits).map fun n => -(n : Int)
  | digits => (Text.numeral? digits).map fun n => (n : Int)

def numbers (first step last : Int) : List Int :=
  let count := if step = 0 then 0 else ((last - first) / step + 1).toNat
  (List.range count).map fun (n : Nat) => first + step * n

/-- Starts `seq`: the last number, the first before it, and a step between them. -/
def startSeq (words : List String) : Routine :=
  let shown (first step last : Int) : Routine :=
    say (String.join ((numbers first step last).map fun n => toString n ++ "\n"))
  match words.find? fun word => (wholeNumber? word).isNone with
  | some word => refuse .seq s!"invalid floating point argument: '{word}'"
  | none =>
      match words.filterMap wholeNumber? with
      | [last] => shown 1 1 last
      | [first, last] => shown first 1 last
      | [first, step, last] =>
          if step = 0 then refuse .seq "invalid Zero increment value: '0'"
          else shown first step last
      | [] => refuse .seq "missing operand"
      | _ => refuse .seq ("extra operand '" ++ (words.drop 3).headD "" ++ "'")

/-- The text that `yes` repeats, several lines at once. -/
def startYes (words : List String) : Routine :=
  let line := (Format.plainLine true (if words.isEmpty then ["y"] else words)).toUTF8
  let times := 4096 / line.size + 1
  .repeatText ((List.replicate times line).foldl (· ++ ·) ByteArray.empty)

/-! ## Waiting -/

/-- The number of seconds that a letter after a number stands for. -/
def unitOf? : List Char → Option Nat
  | [] => some 1
  | ['s'] => some 1
  | ['m'] => some 60
  | ['h'] => some 3600
  | ['d'] => some 86400
  | _ => none

def duration? (text : String) : Option Nat :=
  let whole := text.toList.takeWhile Char.isDigit
  let rest := text.toList.drop whole.length
  let (fraction, rest) := match rest with
    | '.' :: after => (after.takeWhile Char.isDigit, after.dropWhile Char.isDigit)
    | rest => ([], rest)
  if whole.isEmpty && fraction.isEmpty then none
  else
    let billionths := (fraction ++ List.replicate 9 '0').take 9
    (unitOf? rest).map fun unit =>
      unit * ((Text.digits? whole).getD 0 * 1000000000 + (Text.digits? billionths).getD 0)

/-- Starts `sleep`: the durations are added. -/
def startSleep (clock : Nat) (arguments : List String) : Routine :=
  withOptions .sleep [] [] arguments fun options =>
    let words := options.operands
    match words.find? fun word => (duration? word).isNone with
    | some word => refuse .sleep s!"invalid time interval '{word}'"
    | none =>
        if words.isEmpty then refuse .sleep "missing operand"
        else .pause (clock + (words.filterMap duration?).foldl (· + ·) 0) (.exit 0)

/-! ## Filters -/

/-- What a file says about the width of a count. -/
inductive Extent where
  | missing
  | bytes (size : Nat)
  | unknown
  deriving DecidableEq, Repr

def extentOfNode (machine : Machine) (node : NodeId) : Extent :=
  match machine.tree.content? node with
  | some content => .bytes content.size
  | none => .unknown

def extentOf (machine : Machine) (surroundings : Surroundings) (operand : String) : Extent :=
  if operand = "-" then
    match (surroundings.openFile? 0).bind fun file => machine.files[file]? with
    | some ⟨.node node, _, _, _⟩ => extentOfNode machine node
    | some _ => .unknown
    | none => .missing
  else
    match machine.tree.find surroundings.directory operand with
    | .ok node => extentOfNode machine node
    | .error _ => .missing

/-- The places that a count needs: enough for the total size, and seven where a size is unknown. -/
def countWidth (extents : List Extent) (columns : Nat) : Nat :=
  if extents.length ≤ 1 && columns = 1 then 1
  else
    let total := (extents.map fun extent => match extent with
      | .bytes size => size
      | _ => 0).foldl (· + ·) 0
    max (toString total).length (if extents.contains .unknown then 7 else 1)

/-- Starts `wc`, which counts lines, words and bytes unless told which. -/
def startWc (machine : Machine) (surroundings : Surroundings) (arguments : List String) :
    Routine :=
  withOptions .wc ['l', 'w', 'c', 'm'] [] arguments fun options =>
    let bytes := options.has 'c' || options.has 'm'
    let every := !options.has 'l' && !options.has 'w' && !bytes
    let lines := every || options.has 'l'
    let words := every || options.has 'w'
    let bytes := every || bytes
    let operands := if options.operands.isEmpty then ["-"] else options.operands
    let columns := [lines, words, bytes].count true
    let width := countWidth (operands.map (extentOf machine surroundings)) columns
    filtering .wc (.count ⟨lines, words, bytes, width⟩ none {} {} (2 ≤ operands.length))
      options.operands

/-- Starts `head`: ten lines of each input are shown unless told how much. -/
def startHead (arguments : List String) : Routine :=
  let arguments := match arguments with
    | first :: rest =>
        match first.toList with
        | '-' :: c :: digits =>
            if (c :: digits).all Char.isDigit then
              "-n" :: String.ofList (c :: digits) :: rest
            else arguments
        | _ => arguments
    | [] => []
  withOptions .head ['q', 'v'] ['n', 'c'] arguments fun options =>
    let headers := (2 ≤ options.operands.length && !options.has 'q') || options.has 'v'
    match options.given.reverse.find? fun option => option.1 = 'n' || option.1 = 'c' with
    | none => filtering .head (.firstLines 10 10 headers 0) options.operands
    | some (letter, value) =>
        match Text.digits? value.toList with
        | none =>
            let unit := if letter = 'n' then "lines" else "bytes"
            complain .head s!"invalid number of {unit}: '{value}'"
        | some limit =>
            filtering .head
              (if letter = 'n' then .firstLines limit limit headers 0
              else .firstBytes limit limit headers 0)
              options.operands

/-- Starts `sort`. -/
def startSort (arguments : List String) : Routine :=
  withOptions .sort ['r', 'n', 'u'] [] arguments fun options =>
    filtering .sort
      (.sort { reverse := options.has 'r', numeric := options.has 'n', unique := options.has 'u' }
        ByteArray.empty)
      options.operands

/-- Starts `tr`: how many sets it takes depends on what is done with them. -/
def startTr (arguments : List String) : Routine :=
  withOptions .tr ['d', 's', 'c', 'C'] [] arguments fun options =>
    let complements := options.has 'c' || options.has 'C'
    let sets := options.operands.map ByteSet.read
    let first := if complements then ByteSet.complement (sets.headD []) else sets.headD []
    let delete := options.has 'd'
    let squeeze := options.has 's'
    let exchanging (table : ByteExchange) : Routine :=
      filtering .tr (.exchange table) []
    let operand (place : Nat) : String := (options.operands.drop place).headD ""
    let missing := "missing operand after '" ++ operand 0 ++ "'"
    let extra (place : Nat) : String := "extra operand '" ++ operand place ++ "'"
    match sets, delete, squeeze with
    | [], _, _ => refuse .tr "missing operand"
    | [_], true, false => exchanging { delete := first }
    | [_], false, true => exchanging { squeeze := first }
    | [_, second], false, false => exchanging { replace := ByteSet.replacements first second }
    | [_, second], false, true =>
        exchanging { replace := ByteSet.replacements first second, squeeze := second }
    | [_, second], true, true => exchanging { delete := first, squeeze := second }
    | [_], true, true =>
        refuse .tr (missing ++
          "\nTwo strings must be given when both deleting and squeezing repeats.")
    | [_], false, false =>
        refuse .tr (missing ++ "\nTwo strings must be given when translating.")
    | [_, _], true, false =>
        refuse .tr (extra 1 ++
          "\nOnly one string may be given when deleting without squeezing repeats.")
    | _, _, _ => refuse .tr (extra 2)

/-- Starts `grep`: the pattern is the first operand unless an option gives it. -/
def startGrep (arguments : List String) : Routine :=
  withOptions .grep ['v', 'c', 'q', 'F', 'E', 'G', 'h', 'a'] ['e'] arguments fun options =>
    let operands := match options.argument? 'e' with
      | some pattern => pattern :: options.operands
      | none => options.operands
    match operands with
    | [] =>
        .write 2 ("Usage: grep [OPTION]... PATTERNS [FILE]...\n" ++
          "Try 'grep --help' for more information.\n").toUTF8 (.exit 2)
    | pattern :: operands =>
        let bytes := pattern.toUTF8.toList
        filtering .grep
          (.search
            { pattern := if options.has 'F' then Pattern.literal bytes else Pattern.read bytes
              inverted := options.has 'v'
              quiet := options.has 'q'
              count := options.has 'c'
              named := 2 ≤ operands.length && !options.has 'h' }
            {})
          operands

/-- Starts `dd`, which copies blocks and may make its output direct.  Its report tells how long it
took and has to be switched off. -/
def startDd (arguments : List String) : Routine :=
  match arguments.find? fun word => word ≠ "oflag=direct" && word ≠ "status=none" with
  | some word => refuse .dd s!"unrecognized operand '{word}'"
  | none =>
      if !arguments.contains "status=none" then refuse .dd "missing operand 'status=none'"
      else if arguments.contains "oflag=direct" then .setDirect 1 true .copyBlocks
      else .copyBlocks

/-! ## Names -/

/-- Starts `mv`, which gives a file another name. -/
def startMv : List RawText → Routine
  | [] => refuse .mv "missing file operand"
  | [path] => refuse .mv s!"missing destination file operand after '{path.shown}'"
  | [path, renamed] => .rename path renamed
  | _ :: _ :: word :: _ => refuse .mv s!"unrecognized operand '{word.shown}'"

/-- Starts `xargs`, which runs a program with the words of the input as further arguments. -/
def startXargs : List String → Routine
  | [] => .gatherWords ByteArray.empty "echo" []
  | program :: arguments =>
      if program.startsWith "-" then refuse .xargs s!"unrecognized option '{program}'"
      else .gatherWords ByteArray.empty program arguments

/-! ## Scripts -/

def startScriptFile (machine : Machine) (surroundings : Surroundings) (pid : Pid) (path : String)
    (parameters : List String) : Routine :=
  match machine.tree.find surroundings.directory path with
  | .ok node =>
      Script.routineOfText pid path parameters
        (Text.readLossy ((machine.tree.content? node).getD ByteArray.empty))
  | .error reason =>
      let words := if reason = .noEntry || reason = .notDirectory then "No such file"
        else reason.words
      complain .shell s!"0: cannot open {path}: {words}"

/-- Starts `sh`: a script from the arguments, from a file, or from the input. -/
def startShell (machine : Machine) (surroundings : Surroundings) (pid : Pid) (name : String) :
    List String → Routine
  | [] => .gather 0 ByteArray.empty name []
  | "-c" :: [] => complain .shell "0: -c requires an argument"
  | "-c" :: text :: [] => Script.routineOfText pid name [] text
  | "-c" :: text :: name :: parameters => Script.routineOfText pid name parameters text
  | "-s" :: parameters => .gather 0 ByteArray.empty name parameters
  | "-" :: [] => .gather 0 ByteArray.empty name []
  | "-" :: path :: parameters => startScriptFile machine surroundings pid path parameters
  | "--" :: [] => .gather 0 ByteArray.empty name []
  | "--" :: path :: parameters => startScriptFile machine surroundings pid path parameters
  | path :: parameters =>
      if path.startsWith "-" then
        complain .shell s!"0: Illegal option -{(path.drop 1).take 1}"
      else startScriptFile machine surroundings pid path parameters

/-! ## All of them -/

/-- Starts `pwd`. -/
def startPwd (machine : Machine) (surroundings : Surroundings) : Routine :=
  match machine.tree.path? surroundings.directory with
  | some path => .write 1 (bytesOf (path.bytes ++ [lineFeed])) (.exit 0)
  | none => complain .pwd s!"error retrieving current directory: {Errno.words .noEntry}"

def start (machine : Machine) (surroundings : Surroundings) (pid : Pid) (utility : Utility)
    (name : String) (words : List RawText) : Routine :=
  -- Only names of files are more than text to a utility.
  let arguments := words.map RawText.shown
  match utility with
  | .succeed => .exit 0
  | .fail => .exit 1
  | .echo => echoFrom true false arguments
  | .cat => withOptions .cat ['u'] [] arguments fun options => filtering .cat .copy options.operands
  | .sort => startSort arguments
  | .head => startHead arguments
  | .wc => startWc machine surroundings arguments
  | .tr => startTr arguments
  | .printf => startPrintf arguments
  | .seq => startSeq arguments
  | .yes => startYes arguments
  | .sleep => startSleep machine.clock arguments
  | .pwd => startPwd machine surroundings
  | .grep => startGrep arguments
  | .dd => startDd arguments
  | .mv => startMv words
  | .xargs => startXargs arguments
  | .shell => startShell machine surroundings pid name arguments

end Utility

end JobControl.Machine
