import JobControl.Machine.Process
import JobControl.Machine.Script.Command
/-!
# What words stand for

A word stands for the fields that result when its parameters are replaced by their values.  Values
outside of quotes are parted at spaces, tabs and line feeds; `"$@"` stands for one field for each
positional parameter.
-/

namespace JobControl.Machine.Script

/-- The parameters of a script at some time. -/
structure Parameters where
  interpreter : Interpreter
  environment : List (String × String)

namespace Parameters

/-- The value of a parameter; one that is not set is empty. -/
def value (parameters : Parameters) (name : String) : String :=
  let interpreter := parameters.interpreter
  match name with
  | "#" => toString interpreter.parameters.length
  | "?" => toString interpreter.status
  | "$" => toString interpreter.scriptPid.number
  | "!" => (interpreter.lastBackground.map fun pid => toString pid.number).getD ""
  | "0" => interpreter.name
  | name =>
      match name.toNat? with
      | some place => interpreter.parameters.getD (place - 1) ""
      | none =>
          ((interpreter.bindings.lookup name).or (parameters.environment.lookup name)).getD ""

def isGap (c : Char) : Bool :=
  c = ' ' || c = '\t' || c = '\n'

/-- The pieces between gaps; gaps at the ends give empty pieces there, and several gaps count as
one. -/
def pieces : List Char → List (List Char)
  | [] => [[]]
  | c :: rest =>
      match pieces rest with
      | [] => [[]]
      | first :: others =>
          if isGap c then
            if first.isEmpty && !others.isEmpty then [] :: others
            else [] :: first :: others
          else (c :: first) :: others

end Parameters

/-- The fields completed so far, the last one first, and the one that has been begun. -/
structure Expansion where
  fields : List String := []
  current : Option String := none
  deriving DecidableEq, Repr

namespace Expansion

def addText (expansion : Expansion) (text : String) : Expansion :=
  { expansion with current := some (expansion.current.getD "" ++ text) }

def endField (expansion : Expansion) : Expansion :=
  match expansion.current with
  | none => expansion
  | some field => { fields := field :: expansion.fields, current := none }

def addPiece (expansion : Expansion) (piece : List Char) : Expansion :=
  if piece.isEmpty then expansion else expansion.addText (String.ofList piece)

/-- Adds pieces, each but the first in a field of its own. -/
def addPieces (expansion : Expansion) : List (List Char) → Expansion
  | [] => expansion
  | first :: rest =>
      rest.foldl (fun result piece => result.endField.addPiece piece) (expansion.addPiece first)

def addFields (expansion : Expansion) : List String → Expansion
  | [] => expansion
  | first :: rest =>
      rest.foldl (fun result field => result.endField.addText field) (expansion.addText first)

def addPart (parameters : Parameters) (expansion : Expansion) : WordPart → Expansion
  | .text text _ => expansion.addText text
  | .parameter name true => expansion.addText (parameters.value name)
  | .parameter name false =>
      expansion.addPieces (Parameters.pieces (parameters.value name).toList)
  | .parameters true true =>
      expansion.addText (" ".intercalate parameters.interpreter.parameters)
  | .parameters false true => expansion.addFields parameters.interpreter.parameters
  | .parameters _ false =>
      expansion.addPieces
        (Parameters.pieces (" ".intercalate parameters.interpreter.parameters).toList)

end Expansion

/-- Whether a word is only `"$@"`. -/
def isAllParameters (word : Word) : Bool :=
  word.contains (.parameters false true) &&
    word.all fun part => part = .text "" true || part = .parameters false true

def expandWord (parameters : Parameters) (word : Word) : List String :=
  if isAllParameters word && parameters.interpreter.parameters.isEmpty then []
  else (word.foldl (Expansion.addPart parameters) {}).endField.fields.reverse

def expandWords (parameters : Parameters) (words : List Word) : List String :=
  words.flatMap (expandWord parameters)

/-- The text that one part stands for where fields are not parted. -/
def partText (parameters : Parameters) : WordPart → String
  | .text text _ => text
  | .parameter name _ => parameters.value name
  | .parameters _ _ => " ".intercalate parameters.interpreter.parameters

/-- The text that a word stands for where fields are not parted. -/
def expandText (parameters : Parameters) (word : Word) : String :=
  String.join (word.map (partText parameters))

end JobControl.Machine.Script
