import JobControl.Text.Numeral
/-!
# Formats and escapes

A backslash and what follows it may stand for one character.  A format is text with escapes and
with places for arguments; it is used again as long as arguments are left.
-/

namespace JobControl.Machine.Format

def letters : List (Char × Char) :=
  [('a', '\x07'), ('b', '\x08'), ('e', '\x1b'), ('f', '\x0c'), ('n', '\n'), ('r', '\r'),
   ('t', '\t'), ('v', '\x0b'), ('\\', '\\')]

/-- The value of the octal digits at the front of a text, at most as many as said. -/
def octal : Nat → List Char → Nat → Nat × List Char
  | 0, text, value => (value, text)
  | digits + 1, c :: rest, value =>
      if '0' ≤ c ∧ c ≤ '7' then octal digits rest (8 * value + (c.toNat - '0'.toNat))
      else (value, c :: rest)
  | _ + 1, [], value => (value, [])

/-- What follows a backslash: the text it stands for and the rest, or `none` if writing ends.
With `zeroFirst`, octal digits have to follow a zero. -/
def escape (zeroFirst : Bool) : List Char → Option (List Char × List Char)
  | [] => some (['\\'], [])
  | 'c' :: _ => none
  | c :: rest =>
      match letters.lookup c with
      | some replacement => some ([replacement], rest)
      | none =>
          if zeroFirst then
            if c = '0' then
              let (value, left) := octal 3 rest 0
              some ([Char.ofNat (value % 256)], left)
            else some (['\\', c], rest)
          else if '0' ≤ c ∧ c ≤ '7' then
            let (value, left) := octal 3 (c :: rest) 0
            some ([Char.ofNat (value % 256)], left)
          else if c = '"' then some (['"'], rest)
          else some (['\\', c], rest)

/-- A text with its escapes replaced, and whether writing goes on after it.  The first number
bounds the characters. -/
def unescape : Nat → List Char → List Char × Bool
  | _, [] => ([], true)
  | 0, text => (text, true)
  | size + 1, '\\' :: rest =>
      match escape true rest with
      | none => ([], false)
      | some (replacement, left) =>
          let (text, goesOn) := unescape size left
          (replacement ++ text, goesOn)
  | size + 1, c :: rest =>
      let (text, goesOn) := unescape size rest
      (c :: text, goesOn)

/-- Words with spaces between them and a line feed after them, unless that is suppressed. -/
def plainLine (lineFeed : Bool) (words : List String) : String :=
  " ".intercalate words ++ if lineFeed then "\n" else ""

def escapedLine (lineFeed : Bool) (words : List String) : String :=
  let text := (" ".intercalate words).toList
  let (unescaped, goesOn) := unescape text.length text
  String.ofList unescaped ++ if lineFeed && goesOn then "\n" else ""

/-! ## Places for arguments -/

/-- How an argument is set into its place. -/
structure Place where
  left : Bool := false
  zeros : Bool := false
  width : Nat := 0
  precision : Option Nat := none
  deriving DecidableEq, Repr

def Place.fill (place : Place) (numeric : Bool) (text : List Char) : List Char :=
  let missing := place.width - text.length
  if place.left then text ++ List.replicate missing ' '
  else if place.zeros && numeric then
    match text with
    | '-' :: digits => '-' :: List.replicate missing '0' ++ digits
    | digits => List.replicate missing '0' ++ digits
  else List.replicate missing ' ' ++ text

def takeNumber (text : List Char) : Nat × List Char :=
  let digits := text.takeWhile Char.isDigit
  ((Text.digits? digits).getD 0, text.drop digits.length)

def readPlace (text : List Char) : Place × List Char :=
  let flags := text.takeWhile fun c => c = '-' || c = '0'
  let (width, rest) := takeNumber (text.drop flags.length)
  let place : Place := { left := flags.contains '-', zeros := flags.contains '0', width := width }
  match rest with
  | '.' :: after =>
      let (precision, rest) := takeNumber after
      ({ place with precision := some precision }, rest)
  | rest => (place, rest)

/-- The whole number that an argument is; one that is none counts as zero. -/
def wholeNumber (argument : String) : Int :=
  match argument.toList with
  | '-' :: digits => -((Text.digits? digits).getD 0 : Int)
  | '+' :: digits => (Text.digits? digits).getD 0
  | digits => (Text.digits? digits).getD 0

/-- The text for an argument under a conversion, and whether writing goes on after it. -/
def convert (conversion : Char) (place : Place) (argument : Option String) : List Char × Bool :=
  let text := (argument.getD "").toList
  match conversion with
  | 's' => (place.fill false (text.take (place.precision.getD text.length)), true)
  | 'c' => (place.fill false (text.take 1), true)
  | 'b' =>
      let (unescaped, goesOn) := unescape text.length text
      (place.fill false unescaped, goesOn)
  | 'x' =>
      (place.fill true (Nat.toDigits 16 (wholeNumber (argument.getD "")).toNat), true)
  | 'o' =>
      (place.fill true (Nat.toDigits 8 (wholeNumber (argument.getD "")).toNat), true)
  | _ => (place.fill true (toString (wholeNumber (argument.getD ""))).toList, true)

/-- One use of a format: the text, the arguments left, whether arguments were asked for, and
whether writing goes on.  The first number bounds the characters. -/
def useOnce : Nat → List Char → List String → List Char × List String × Bool × Bool
  | 0, _, arguments => ([], arguments, false, true)
  | _, [], arguments => ([], arguments, false, true)
  | size + 1, '\\' :: rest, arguments =>
      match escape false rest with
      | none => ([], arguments, false, false)
      | some (replacement, left) =>
          let (text, arguments, asked, goesOn) := useOnce size left arguments
          (replacement ++ text, arguments, asked, goesOn)
  | size + 1, '%' :: '%' :: rest, arguments =>
      let (text, arguments, asked, goesOn) := useOnce size rest arguments
      ('%' :: text, arguments, asked, goesOn)
  | size + 1, '%' :: rest, arguments =>
      let (place, rest) := readPlace rest
      match rest with
      | [] => (['%'], arguments, false, true)
      | conversion :: rest =>
          let (shown, goesOn) := convert conversion place arguments.head?
          if goesOn then
            let (text, arguments, _, goesOn) := useOnce size rest (arguments.drop 1)
            (shown ++ text, arguments, true, goesOn)
          else (shown, [], true, false)
  | size + 1, c :: rest, arguments =>
      let (text, arguments, asked, goesOn) := useOnce size rest arguments
      (c :: text, arguments, asked, goesOn)

/-- Uses a format as often as there are arguments for it, at most as often as said. -/
def useAll (format : List Char) : Nat → List String → List Char
  | 0, _ => []
  | uses + 1, arguments =>
      let (text, left, asked, goesOn) := useOnce (format.length + 1) format arguments
      if goesOn && asked && !left.isEmpty then text ++ useAll format uses left else text

def takesArguments (format : String) (arguments : List String) : Bool :=
  (useOnce (format.length + 1) format.toList arguments).2.2.1

def apply (format : String) (arguments : List String) : String :=
  String.ofList (useAll format.toList (arguments.length + 1) arguments)

end JobControl.Machine.Format
