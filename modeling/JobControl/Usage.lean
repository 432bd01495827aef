import JobControl.Text.Blank
/-!
# Usage: what a command line may hold

A usage names the flags of a command and how many operands it takes.  Arguments are read from
left to right.  A short flag is one letter after a dash, and several share one dash; a long flag
follows two dashes and may carry its argument after an equals sign.  A lone dash is an operand, and
so is every argument after a lone double dash, and every argument with a blank in its name.
Each flag may be given once.
-/

namespace JobControl

/-- A flag of a command; at least one of its names is given. -/
structure Flag where
  short : Option Char
  long : Option String
  takesArgument : Bool
  deriving DecidableEq, Repr

namespace Flag

/-- The name under which a complaint mentions a flag given by its short name. -/
def shortName (letter : Char) : String :=
  String.ofList ['-', letter]

/-- The name under which a complaint mentions a flag given by its long name. -/
def longName (name : String) : String :=
  "--" ++ name

/-- The name of a flag in complaints: the long one where it has one. -/
def name (flag : Flag) : String :=
  match flag.long, flag.short with
  | some long, _ => longName long
  | none, some letter => shortName letter
  | none, none => ""

end Flag

/-- The flags and operands of a command, with the lines that tell them. -/
structure Usage where
  flags : List Flag
  operands : Nat
  summary : String
  deriving Repr

/-- What is wrong with the arguments of a command. -/
inductive UsageProblem where
  | unknownFlag (flag : String) (meant : Option String)
  | missingArgument (flag : String)
  | unexpectedArgument (flag argument : String)
  | noMatch
  deriving DecidableEq, Repr

def UsageProblem.message : UsageProblem → String
  | .unknownFlag flag none => s!"Unknown flag: '{flag}'"
  | .unknownFlag flag (some meant) => s!"Unknown flag: '{flag}'. Did you mean '{meant}'?"
  | .missingArgument flag => s!"Expected argument for flag '{flag}' but reached end of arguments."
  | .unexpectedArgument flag argument =>
      s!"Flag '{flag}' cannot have an argument, but found '{argument}'."
  | .noMatch => "Invalid arguments."

/-- A problem together with the usage that was not followed. -/
structure UsageFault where
  problem : UsageProblem
  summary : String
  deriving DecidableEq, Repr

/-- A complaint: the problem, an empty line, and the usage. -/
def UsageFault.message (fault : UsageFault) : String :=
  fault.problem.message ++ "\n\n" ++ fault.summary

/-- What the arguments of a command say. -/
structure Arguments where
  flags : List (Flag × Option String)
  operands : List String
  deriving DecidableEq, Repr

namespace Arguments

def hasLong (arguments : Arguments) (long : String) : Bool :=
  arguments.flags.any fun given => given.1.long = some long

def shortArgument? (arguments : Arguments) (letter : Char) : Option String :=
  (arguments.flags.find? fun given => given.1.short = some letter).bind Prod.snd

def longArgument? (arguments : Arguments) (long : String) : Option String :=
  (arguments.flags.find? fun given => given.1.long = some long).bind Prod.snd

end Arguments

namespace Usage

/-! ## Forms of an argument -/

/-- A dash and a letter that is no dash, then no blank. -/
def isShortForm : List Char → Bool
  | '-' :: letter :: rest => letter ≠ '-' && rest.all fun c => !Text.isBlank c
  | _ => false

/-- Two dashes and a name without a blank.  From an equals sign inside the name on, an argument
may hold any character but a line feed. -/
def isLongForm : List Char → Bool
  | '-' :: '-' :: c :: rest =>
      let name := rest.takeWhile fun d => d ≠ '=' && !Text.isBlank d
      let after := rest.drop name.length
      !Text.isBlank c &&
        (rest.all (fun d => !Text.isBlank d) ||
          (after.head? = some '=' && 2 ≤ after.length && after.all fun d => d ≠ '\n'))
  | _ => false

/-! ## Suggestions -/

/-- One row of the table of edit distances: `above` is the row for the text without `c`, with its
first entry taken off as `corner`, and `left` the entry before the row's next. -/
def distanceRow (c : Char) (corner left : Nat) : List Char → List Nat → List Nat
  | d :: word, up :: above =>
      let here := min (min (up + 1) (left + 1)) (if c = d then corner else corner + 1)
      here :: distanceRow c up here word above
  | _, _ => []

/-- The least number of characters to insert, delete or replace that turns one word into the
other. -/
def editDistance (source target : List Char) : Nat :=
  let first := List.range (target.length + 1)
  let last := (source.foldl
    (fun (state : Nat × List Nat) c =>
      let count := state.1 + 1
      (count, count :: distanceRow c state.1 count target (state.2.drop 1)))
    (0, first)).2
  last.getLastD 0

/-- Of the long names within two edits of an unknown flag, the first of the nearest. -/
def meant? (usage : Usage) (flag : String) : Option String :=
  let near := usage.flags.filterMap fun known =>
    known.long.bind fun long =>
      let distance := editDistance flag.toList (Flag.longName long).toList
      if distance < 3 then some (distance, Flag.longName long) else none
  (near.foldl
    (fun (best : Option (Nat × String)) next =>
      match best with
      | none => some next
      | some found => if next.1 < found.1 then some next else some found)
    none).map Prod.snd

/-! ## Reading arguments -/

/-- The complaint about a flag that the command does not have. -/
def unknown (usage : Usage) (flag : String) : UsageProblem :=
  .unknownFlag flag (usage.meant? flag)

/-- Reads the letters that share one dash.  A flag that takes an argument takes the letters after
it, or the next argument where there are none; what is left of the arguments is returned. -/
def readLetters (usage : Usage) (next : List String) :
    List Char → Except UsageProblem (List (Flag × Option String) × List String)
  | [] => .ok ([], next)
  | letter :: rest =>
      match usage.flags.find? fun flag => flag.short = some letter with
      | none => .error (usage.unknown (Flag.shortName letter))
      | some flag =>
          if flag.takesArgument then
            if rest.isEmpty then
              match next with
              | [] => .error (.missingArgument flag.name)
              | argument :: left => .ok ([(flag, some argument)], left)
            else
              .ok ([(flag, some (String.ofList rest))], next)
          else do
            let (flags, left) ← readLetters usage next rest
            .ok ((flag, none) :: flags, left)

def readLong (usage : Usage) (next : List String) (text : List Char) :
    Except UsageProblem ((Flag × Option String) × List String) :=
  let name := String.ofList (text.takeWhile (· ≠ '='))
  let argument := (text.dropWhile (· ≠ '=')).tail?.map String.ofList
  match usage.flags.find? fun flag => flag.long = some name with
  | none => .error (usage.unknown (Flag.longName name))
  | some flag =>
      match argument, flag.takesArgument, next with
      | some given, true, _ => .ok ((flag, some given), next)
      | some given, false, _ => .error (.unexpectedArgument flag.name given)
      | none, false, _ => .ok ((flag, none), next)
      | none, true, [] => .error (.missingArgument flag.name)
      | none, true, given :: left => .ok ((flag, some given), left)

theorem length_of_readLetters {usage : Usage} {next left : List String} {letters : List Char}
    {flags : List (Flag × Option String)}
    (read : usage.readLetters next letters = .ok (flags, left)) :
    left.length ≤ next.length := by
  induction letters generalizing flags left with
  | nil => simp_all [readLetters]
  | cons letter rest inductionHypothesis =>
      unfold readLetters at read
      split at read
      · cases read
      · split at read
        · split at read
          · split at read
            · cases read
            · cases read
              simp
          · cases read
            exact Nat.le_refl _
        · cases inner : usage.readLetters next rest with
          | error problem => simp [inner, bind, Except.bind] at read
          | ok result =>
              simp only [inner, bind, Except.bind, Except.ok.injEq, Prod.mk.injEq] at read
              exact read.2 ▸ inductionHypothesis inner

theorem length_of_readLong {usage : Usage} {next left : List String} {text : List Char}
    {flag : Flag × Option String}
    (read : usage.readLong next text = .ok (flag, left)) :
    left.length ≤ next.length := by
  unfold readLong at read
  dsimp only at read
  split at read
  · cases read
  · split at read <;> cases read <;> simp

/-- Reads the arguments of a command one after the other. -/
def readArguments (usage : Usage) : List String → Except UsageProblem Arguments
  | [] => .ok ⟨[], []⟩
  | argument :: rest =>
      if argument = "--" then
        .ok ⟨[], rest⟩
      else if isShortForm argument.toList then
        match read : usage.readLetters rest (argument.toList.drop 1) with
        | .error problem => .error problem
        | .ok (flags, left) => do
            have : left.length ≤ rest.length := length_of_readLetters read
            let later ← readArguments usage left
            .ok { later with flags := flags ++ later.flags }
      else if isLongForm argument.toList then
        match read : usage.readLong rest (argument.toList.drop 2) with
        | .error problem => .error problem
        | .ok (flag, left) => do
            have : left.length ≤ rest.length := length_of_readLong read
            let later ← readArguments usage left
            .ok { later with flags := flag :: later.flags }
      else do
        let later ← readArguments usage rest
        .ok { later with operands := argument :: later.operands }
termination_by arguments => arguments.length
decreasing_by
  all_goals
    simp only [List.length_cons]
    omega

/-- Whether no flag is given twice and there are not too many operands. -/
def admits (usage : Usage) (arguments : Arguments) : Bool :=
  usage.flags.all (fun flag => (arguments.flags.countP fun given => given.1 == flag) ≤ 1) &&
    arguments.operands.length ≤ usage.operands

/-- What the arguments of a command say, or why they do not follow its usage. -/
def read (usage : Usage) (arguments : List String) : Except UsageFault Arguments :=
  match usage.readArguments arguments with
  | .error problem => .error ⟨problem, usage.summary⟩
  | .ok read =>
      if usage.admits read then .ok read else .error ⟨.noMatch, usage.summary⟩

end Usage

end JobControl
