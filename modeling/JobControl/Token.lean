import JobControl.Text.Blank
/-!
# Tokens of a line

A line is made of words and operators.  A word is a longest run of ordinary characters, those that
are neither blank nor `|`, `&`, `<`, `>`; the other four are operators.  The word `2` directly
before `>` is not a word: the two are the operator that names a step's error file.
-/

namespace JobControl

/-- A word or an operator of a line. -/
inductive Token where
  | word (text : String)
  /-- The bar `|`. -/
  | pipe
  /-- The sign `<`. -/
  | input
  /-- The sign `>`. -/
  | output
  /-- The sign `2>`. -/
  | errorOutput
  /-- The sign `&`. -/
  | background
  deriving DecidableEq, Repr

namespace Token

def operator? : Char → Option Token
  | '|' => some .pipe
  | '&' => some .background
  | '<' => some .input
  | '>' => some .output
  | _ => none

def isOrdinary (c : Char) : Bool :=
  !Text.isBlank c && (operator? c).isNone

def scan : List Char → List Token
  | [] => []
  | c :: rest =>
      if isOrdinary c then
        let word := c :: rest.takeWhile isOrdinary
        let after := rest.dropWhile isOrdinary
        if word = ['2'] ∧ after.head? = some '>' then
          .errorOutput :: scan (after.drop 1)
        else
          .word (String.ofList word) :: scan after
      else
        match operator? c with
        | some token => token :: scan rest
        | none => scan rest
termination_by line => line.length
decreasing_by
  all_goals
    have := (List.dropWhile_sublist (p := isOrdinary) (l := rest)).length_le
    simp
    try omega

def ofText (text : String) : List Token :=
  scan text.toList

end Token

end JobControl
