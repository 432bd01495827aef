/-!
# Lines of a text

A line ends with a line feed, before which one carriage return belongs to the ending.  What
follows the last line feed is a line too unless it is empty; a carriage return at its end is
part of the line.
-/

namespace JobControl.Text

/-- Cuts a text after each line feed; the pieces joined give the text back. -/
def cutLines : List Char → List (List Char)
  | [] => []
  | '\n' :: rest => ['\n'] :: cutLines rest
  | c :: rest =>
      match cutLines rest with
      | [] => [[c]]
      | line :: lines =>
          (c :: line) :: lines

/-- A line without its ending, given with its last character first. -/
def dropEndingReversed : List Char → List Char
  | '\n' :: '\r' :: rest => rest
  | '\n' :: rest => rest
  | rest => rest

def dropEnding (line : List Char) : List Char :=
  (dropEndingReversed line.reverse).reverse

def lines (text : String) : List String :=
  (cutLines text.toList).map fun line => String.ofList (dropEnding line)

theorem flatten_cutLines (text : List Char) :
    (cutLines text).flatten = text := by
  fun_induction cutLines text with
  | case1 => rfl
  | case2 rest inductionHypothesis => simp [inductionHypothesis]
  | case3 c rest _ noLines inductionHypothesis =>
      simp_all
  | case4 c rest _ line lines cut inductionHypothesis =>
      simp_all

end JobControl.Text
