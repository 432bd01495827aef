import JobControl.Machine.Script.Command
/-!
# Reading a script

The text of a script is cut into words and operators, and these are put together to commands.  A
script that cannot be read is refused with the line in which reading stopped.
-/

namespace JobControl.Machine.Script

/-! ## Lexemes -/

/-- A word or operator of a script. -/
inductive LexemeBody where
  | word (word : Word)
  | operator (text : String)
  | redirection (descriptor : Nat) (kind : RedirectionKind)
  | newline
  deriving DecidableEq, Repr

/-- A lexeme with the line in which it stands. -/
structure Lexeme where
  line : Nat
  body : LexemeBody
  deriving DecidableEq, Repr

/-- In what kind of text the next character stands. -/
inductive Mode where
  | plain
  | comment
  | single
  | double
  deriving DecidableEq, Repr

/-- The lexemes read so far, the last one first, and the word that has been begun. -/
structure Lexing where
  line : Nat := 1
  mode : Mode := .plain
  done : List Lexeme := []
  word : Option Word := none
  deriving Repr

namespace Lexing

def addPart (lexing : Lexing) (part : WordPart) : Lexing :=
  match lexing.word, part with
  | some parts, .text text quoted =>
      match parts.getLast? with
      | some (.text before quotedBefore) =>
          if quoted = quotedBefore then
            { lexing with word := some (parts.dropLast ++ [.text (before ++ text) quoted]) }
          else { lexing with word := some (parts ++ [part]) }
      | _ => { lexing with word := some (parts ++ [part]) }
  | some parts, part => { lexing with word := some (parts ++ [part]) }
  | none, part => { lexing with word := some [part] }

def add (lexing : Lexing) (body : LexemeBody) : Lexing :=
  { lexing with done := { line := lexing.line, body := body } :: lexing.done }

def endWord (lexing : Lexing) : Lexing :=
  match lexing.word with
  | none => lexing
  | some parts => { lexing.add (.word parts) with word := none }

def operator (lexing : Lexing) (text : String) : Lexing :=
  lexing.endWord.add (.operator text)

/-- Adds a redirection; a word of digits directly before it is the descriptor. -/
def redirection (lexing : Lexing) (kind : RedirectionKind) (usual : Nat) : Lexing :=
  match lexing.word with
  | some [.text text false] =>
      match (if text.toList.all Char.isDigit then text.toNat? else none) with
      | some descriptor =>
          { lexing.add (.redirection descriptor kind) with word := none }
      | none => lexing.endWord.add (.redirection usual kind)
  | _ => lexing.endWord.add (.redirection usual kind)

def character (lexing : Lexing) (c : Char) (quoted : Bool) : Lexing :=
  lexing.addPart (.text c.toString quoted)

def quotes (lexing : Lexing) : Bool :=
  lexing.mode = .double

def parameterPart (name : String) (quoted : Bool) : WordPart :=
  if name = "@" then .parameters false quoted
  else if name = "*" then .parameters true quoted
  else .parameter name quoted

end Lexing

def isNameChar (c : Char) : Bool :=
  c.isAlphanum || c = '_'

/-- Cuts a text into lexemes; at its end no quotation may be open. -/
def cut (lexing : Lexing) (text : List Char) : Except Nat (List Lexeme) :=
  match lexing.mode, text with
  | .plain, [] => .ok lexing.endWord.done.reverse
  | .comment, [] => .ok lexing.endWord.done.reverse
  | _, [] => .error lexing.line
  | .comment, '\n' :: rest =>
      let ended := lexing.add .newline
      cut { ended with line := lexing.line + 1, mode := .plain } rest
  | .comment, _ :: rest => cut lexing rest
  | .single, '\'' :: rest => cut { lexing with mode := .plain } rest
  | .single, c :: rest =>
      let next := lexing.character c true
      cut { next with line := if c = '\n' then lexing.line + 1 else lexing.line } rest
  | .double, '"' :: rest => cut { lexing with mode := .plain } rest
  | .double, '\\' :: c :: rest =>
      if c = '\n' then cut { lexing with line := lexing.line + 1 } rest
      else if c = '"' || c = '\\' || c = '$' || c.toNat = 0x60 then
        cut (lexing.character c true) rest
      else cut ((lexing.character '\\' true).addPart (.text c.toString true)) rest
  | .plain, '\\' :: '\n' :: rest => cut { lexing with line := lexing.line + 1 } rest
  | .plain, '\\' :: c :: rest => cut (lexing.character c true) rest
  | .plain, '\'' :: rest => cut { lexing.addPart (.text "" true) with mode := .single } rest
  | .plain, '"' :: rest => cut { lexing.addPart (.text "" true) with mode := .double } rest
  | _, '$' :: '\x7b' :: rest =>
      let name := rest.takeWhile (· ≠ '\x7d')
      cut (lexing.addPart (Lexing.parameterPart (String.ofList name) lexing.quotes))
        (rest.drop (name.length + 1))
  | _, '$' :: c :: rest =>
      if c.isDigit || ['@', '*', '#', '?', '$', '!'].contains c then
        cut (lexing.addPart (Lexing.parameterPart c.toString lexing.quotes)) rest
      else if isNameChar c then
        let name := c :: rest.takeWhile isNameChar
        cut (lexing.addPart (.parameter (String.ofList name) lexing.quotes))
          (rest.drop (name.length - 1))
      else
        cut (lexing.character '$' lexing.quotes) (c :: rest)
  | .double, c :: rest =>
      let next := lexing.character c true
      cut { next with line := if c = '\n' then lexing.line + 1 else lexing.line } rest
  | .plain, '\n' :: rest =>
      cut { lexing.endWord.add .newline with line := lexing.line + 1 } rest
  | .plain, ' ' :: rest => cut lexing.endWord rest
  | .plain, '\t' :: rest => cut lexing.endWord rest
  | .plain, '&' :: '&' :: rest => cut (lexing.operator "&&") rest
  | .plain, '|' :: '|' :: rest => cut (lexing.operator "||") rest
  | .plain, '&' :: rest => cut (lexing.operator "&") rest
  | .plain, '|' :: rest => cut (lexing.operator "|") rest
  | .plain, ';' :: rest => cut (lexing.operator ";") rest
  | .plain, '(' :: rest => cut (lexing.operator "(") rest
  | .plain, ')' :: rest => cut (lexing.operator ")") rest
  | .plain, '>' :: '>' :: rest => cut (lexing.redirection .append 1) rest
  | .plain, '>' :: '&' :: rest => cut (lexing.redirection .duplicate 1) rest
  | .plain, '<' :: '&' :: rest => cut (lexing.redirection .duplicate 0) rest
  | .plain, '>' :: rest => cut (lexing.redirection .write 1) rest
  | .plain, '<' :: rest => cut (lexing.redirection .read 0) rest
  | .plain, '#' :: rest =>
      if lexing.word.isNone then cut { lexing with mode := .comment } rest
      else cut (lexing.character '#' false) rest
  | .plain, c :: rest => cut (lexing.character c false) rest
termination_by text.length
decreasing_by
  all_goals
    simp only [wfParam, List.length_cons, List.length_drop]
    omega

/-! ## Commands -/

/-- The keyword that a word is, at a place where a command may begin. -/
def keyword? : Lexeme → Option String
  | ⟨_, .word [.text text false]⟩ =>
      if ["!", "\x7b", "\x7d", "if", "then", "elif", "else", "fi", "while", "until", "for", "in",
          "do", "done"].contains text then some text
      else none
  | ⟨_, .operator ")"⟩ => some ")"
  | _ => none

/-- A reader takes lexemes from the front, or stops with the line in which it could not go on. -/
abbrev Reader (α : Type) : Type :=
  StateT (List Lexeme) (Except Nat) α

namespace Reader

def stop {α : Type} : Reader α := do
  match ← get with
  | [] => throw 1
  | lexeme :: _ => throw lexeme.line

def peek? : Reader (Option Lexeme) := do
  return (← get).head?

def skip : Reader Unit :=
  modify (List.drop 1)

def skipWhile (condition : Lexeme → Bool) : Reader Unit :=
  modify (List.dropWhile condition)

def skipNewlines : Reader Unit :=
  skipWhile fun lexeme => lexeme.body = .newline

def skipEnds : Reader Unit :=
  skipWhile fun lexeme => lexeme.body = .newline || lexeme.body = .operator ";"

def tookOperator (text : String) : Reader Bool := do
  match ← peek? with
  | some lexeme =>
      if lexeme.body = .operator text then
        skip
        return true
      else return false
  | none => return false

def expect (word : String) : Reader Unit := do
  match (← peek?).bind keyword? with
  | some found => if found = word then skip else stop
  | none => stop

end Reader

/-- The assignment that a word is: a name, an equals sign, and the value. -/
def assignment? : Word → Option (String × Word)
  | .text text false :: rest =>
      let name := text.toList.takeWhile isNameChar
      let after := text.toList.drop name.length
      if name.isEmpty || after.head? ≠ some '=' || name.head?.any Char.isDigit then none
      else some (String.ofList name, .text (String.ofList (after.drop 1)) false :: rest)
  | _ => none

def splitAssignments : List Word → List (String × Word) × List Word
  | [] => ([], [])
  | word :: rest =>
      match assignment? word with
      | none => ([], word :: rest)
      | some assignment =>
          let (assignments, words) := splitAssignments rest
          (assignment :: assignments, words)

def splitParts : List Lexeme → List Word × List FileRedirection × List Lexeme
  | ⟨_, .redirection descriptor kind⟩ :: ⟨_, .word target⟩ :: rest =>
      let (words, redirections, left) := splitParts rest
      (words, ⟨descriptor, kind, target⟩ :: redirections, left)
  | ⟨_, .word word⟩ :: rest =>
      let (words, redirections, left) := splitParts rest
      (word :: words, redirections, left)
  | lexemes => ([], [], lexemes)

/-- Reads words and redirections; a redirection without its word stops. -/
def readParts : Reader (List Word × List FileRedirection) := do
  let (words, redirections, left) := splitParts (← get)
  set left
  match left with
  | ⟨line, .redirection _ _⟩ :: _ => throw line
  | _ => return (words, redirections)

def readWords : Reader (List Word) := do
  let (words, redirections) ← readParts
  if redirections.isEmpty then return words else Reader.stop

def withRedirections (command : Command) : Reader Command := do
  let (words, redirections) ← readParts
  if !words.isEmpty then Reader.stop
  else if redirections.isEmpty then return command
  else return .redirected command redirections

def listEnds : List String :=
  ["then", "elif", "else", "fi", "do", "done", "\x7d", ")"]

def readName : Reader (Option String) := do
  match ← Reader.peek? with
  | some ⟨_, .word [.text name false]⟩ => do
      Reader.skip
      return some name
  | _ => return none

mutual

/-- Reads commands up to a keyword that ends them, or the end of the text. -/
def readList : Nat → Reader Command
  | 0 => Reader.stop
  | depth + 1 => do
      Reader.skipEnds
      match ← Reader.peek? with
      | none => return .nothing
      | some lexeme =>
          if (keyword? lexeme).any listEnds.contains then
            return .nothing
          else
            let first ← readPipeline depth
            let command ← readConnections depth first
            let background ← Reader.tookOperator "&"
            let later ← readList depth
            return .sequence (if background then .background command else command) later

/-- Reads what is connected to a command by `&&` and `||`. -/
def readConnections (depth : Nat) (first : Command) : Reader Command :=
  match depth with
  | 0 => Reader.stop
  | depth + 1 => do
      if ← Reader.tookOperator "&&" then
        Reader.skipNewlines
        let second ← readPipeline depth
        readConnections depth (.connected false first second)
      else if ← Reader.tookOperator "||" then
        Reader.skipNewlines
        let second ← readPipeline depth
        readConnections depth (.connected true first second)
      else return first

/-- Reads one command or several joined by `|`. -/
def readPipeline : Nat → Reader Command
  | 0 => Reader.stop
  | depth + 1 => do
      if (← Reader.peek?).bind keyword? = some "!" then
        Reader.skip
        return .negated (← readPipeline depth)
      else
        match ← readStages depth with
        | [command] => return command
        | commands => return .pipeline commands

def readStages : Nat → Reader (List Command)
  | 0 => Reader.stop
  | depth + 1 => do
      let command ← readCommand depth
      if ← Reader.tookOperator "|" then
        Reader.skipNewlines
        return command :: (← readStages depth)
      else return [command]

def readChoice : Nat → Reader Command
  | 0 => Reader.stop
  | depth + 1 => do
      let test ← readList depth
      Reader.expect "then"
      let yes ← readList depth
      match (← Reader.peek?).bind keyword? with
      | some "elif" =>
          Reader.skip
          return .choice test yes (← readChoice depth)
      | some "else" =>
          Reader.skip
          let no ← readList depth
          Reader.expect "fi"
          return .choice test yes no
      | _ =>
          Reader.expect "fi"
          return .choice test yes .nothing

def readBody : Nat → Reader Command
  | 0 => Reader.stop
  | depth + 1 => do
      Reader.skipEnds
      Reader.expect "do"
      let body ← readList depth
      Reader.expect "done"
      return body

def readCommand : Nat → Reader Command
  | 0 => Reader.stop
  | depth + 1 => do
      match ← Reader.peek? with
      | none => Reader.stop
      | some lexeme =>
          if ← Reader.tookOperator "(" then
            let body ← readList depth
            Reader.expect ")"
            withRedirections (.subshell body)
          else
            match keyword? lexeme with
            | none => do
                let (words, redirections) ← readParts
                if words.isEmpty && redirections.isEmpty then Reader.stop
                else
                  let (assignments, words) := splitAssignments words
                  return .simple lexeme.line assignments words redirections
            | some word => do
                Reader.skip
                match word with
                | "\x7b" => do
                    let body ← readList depth
                    Reader.expect "\x7d"
                    withRedirections body
                | "if" => do
                    withRedirections (← readChoice depth)
                | "while" => do
                    let test ← readList depth
                    withRedirections (.loop false test (← readBody depth))
                | "until" => do
                    let test ← readList depth
                    withRedirections (.loop true test (← readBody depth))
                | "for" => do
                    match ← readName with
                    | none => throw lexeme.line
                    | some name => do
                        Reader.skipNewlines
                        if (← Reader.peek?).bind keyword? = some "in" then
                          Reader.skip
                          let words ← readWords
                          withRedirections (.each name (some words) (← readBody depth))
                        else
                          withRedirections (.each name none (← readBody depth))
                | _ => throw lexeme.line

end

def read (text : String) : Except Nat Command := do
  let lexemes ← cut {} text.toList
  let (command, rest) ← (readList (10 * lexemes.length + 10)).run lexemes
  match rest with
  | [] => return command
  | lexeme :: _ => throw lexeme.line

end JobControl.Machine.Script
