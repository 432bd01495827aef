/-!
# Patterns

Basic regular expressions over bytes: a byte, any byte, or a set of bytes, each of them repeatable
with a star, and anchors at the two ends.
-/

namespace JobControl.Machine

/-- What one byte of a text is compared with. -/
inductive PatternAtom where
  | byte (value : UInt8)
  | any
  | oneOf (ranges : List (UInt8 × UInt8))
  | noneOf (ranges : List (UInt8 × UInt8))
  deriving DecidableEq, Repr

def PatternAtom.accepts : PatternAtom → UInt8 → Bool
  | .byte value, c => c = value
  | .any, _ => true
  | .oneOf ranges, c => ranges.any fun range => range.1 ≤ c && c ≤ range.2
  | .noneOf ranges, c => !ranges.any fun range => range.1 ≤ c && c ≤ range.2

/-- A pattern: atoms, each with whether it may be repeated. -/
structure Pattern where
  atStart : Bool
  atEnd : Bool
  atoms : List (PatternAtom × Bool)
  deriving DecidableEq, Repr

namespace Pattern

def readRanges : List UInt8 → List (UInt8 × UInt8) × List UInt8
  | [] => ([], [])
  | 93 :: rest => ([], rest)
  | first :: 45 :: last :: rest =>
      if last = 93 then ([(first, first), (45, 45)], rest)
      else
        let (ranges, left) := readRanges rest
        ((first, last) :: ranges, left)
  | c :: rest =>
      let (ranges, left) := readRanges rest
      ((c, c) :: ranges, left)

/-- Reads the ranges of a set, in which a closing bracket at the start is an ordinary byte. -/
def readSet : List UInt8 → List (UInt8 × UInt8) × List UInt8
  | 93 :: rest =>
      let (ranges, left) := readRanges rest
      ((93, 93) :: ranges, left)
  | text => readRanges text

def readAtom : List UInt8 → Option (PatternAtom × List UInt8)
  | [] => none
  | 46 :: rest => some (.any, rest)
  | 92 :: c :: rest => some (.byte c, rest)
  | 91 :: 94 :: rest =>
      let (ranges, left) := readSet rest
      some (.noneOf ranges, left)
  | 91 :: rest =>
      let (ranges, left) := readSet rest
      some (.oneOf ranges, left)
  | c :: rest => some (.byte c, rest)

def readAtoms : Nat → List UInt8 → List (PatternAtom × Bool)
  | 0, _ => []
  | atoms + 1, text =>
      match readAtom text with
      | none => []
      | some (atom, 42 :: rest) => (atom, true) :: readAtoms atoms rest
      | some (atom, rest) => (atom, false) :: readAtoms atoms rest

def read (text : List UInt8) : Pattern :=
  let atStart := text.head? = some 94
  let inner := if atStart then text.drop 1 else text
  let atEnd := inner.getLast? = some 36 && inner.dropLast.getLast? ≠ some 92
  let inner := if atEnd then inner.dropLast else inner
  { atStart := atStart, atEnd := atEnd, atoms := readAtoms inner.length inner }

def literal (text : List UInt8) : Pattern :=
  { atStart := false, atEnd := false, atoms := text.map fun c => (.byte c, false) }

/-- Whether the atoms stand for the beginning of a text, or for all of it if `whole`. -/
def matchesFrom (whole : Bool) : List (PatternAtom × Bool) → List UInt8 → Bool
  | [], text => !whole || text.isEmpty
  | (atom, false) :: rest, text =>
      match text with
      | [] => false
      | c :: after => atom.accepts c && matchesFrom whole rest after
  | (atom, true) :: rest, text =>
      matchesFrom whole rest text ||
        match text with
        | [] => false
        | c :: after => atom.accepts c && matchesFrom whole ((atom, true) :: rest) after
termination_by atoms text => (text.length, atoms.length)

def isFoundIn (pattern : Pattern) (text : List UInt8) : Bool :=
  matchesFrom pattern.atEnd pattern.atoms text ||
    (!pattern.atStart &&
      match text with
      | [] => false
      | _ :: rest => isFoundIn pattern rest)
termination_by text.length

end Pattern

end JobControl.Machine
