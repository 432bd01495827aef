import JobControl.Machine.Filter
import JobControl.Machine.Utility.Format
/-!
# Sets of bytes

A set is written as its bytes, with ranges, escapes and classes, and keeps their order; the bytes
of one set are replaced by those at the same places of another.
-/

namespace JobControl.Machine.ByteSet

def range (first last : UInt8) : List UInt8 :=
  (List.range (last.toNat + 1 - first.toNat)).map fun n => (first.toNat + n).toUInt8

def classes : List (String × List UInt8) :=
  [("upper", range 65 90), ("lower", range 97 122), ("alpha", range 65 90 ++ range 97 122),
   ("digit", range 48 57), ("alnum", range 48 57 ++ range 65 90 ++ range 97 122),
   ("space", range 9 13 ++ [32]), ("blank", [9, 32]),
   ("punct", range 33 47 ++ range 58 64 ++ range 91 96 ++ range 123 126)]

/-- The class at the front of a text, and what follows it. -/
def class? (text : List Char) : Option (List UInt8 × List Char) :=
  match text with
  | '[' :: ':' :: rest =>
      let name := rest.takeWhile (· ≠ ':')
      match rest.drop name.length with
      | ':' :: ']' :: left => (classes.lookup (String.ofList name)).map fun set => (set, left)
      | _ => none
  | _ => none

/-- The bytes at the front of a text: those of one character, escaped or not, and what follows. -/
def character (text : List Char) : List UInt8 × List Char :=
  match text with
  | [] => ([], [])
  | '\\' :: rest =>
      match Format.escape false rest with
      | some (['\\', c], left) => (c.toString.toUTF8.toList, left)
      | some (replacement, left) => (replacement.map fun c => c.toNat.toUInt8, left)
      | none => ([99], rest.drop 1)
  | c :: rest => (c.toString.toUTF8.toList, rest)

/-- Reads a set; the first number bounds the characters. -/
def readFrom : Nat → List Char → List UInt8
  | 0, _ => []
  | _, [] => []
  | size + 1, text =>
      match class? text with
      | some (set, left) => set ++ readFrom size left
      | none =>
          let (first, rest) := character text
          match first, rest with
          | [low], '-' :: c :: after =>
              match character (c :: after) with
              | ([high], left) => range low high ++ readFrom size left
              | _ => low :: readFrom size rest
          | bytes, rest => bytes ++ readFrom size rest

def read (text : String) : List UInt8 :=
  readFrom text.length text.toList

def complement (set : List UInt8) : List UInt8 :=
  (range 0 255).filter fun c => !set.contains c

/-- Each byte of one set with the one that replaces it: its last byte is used again for those that
another set has more of. -/
def pairs : List UInt8 → List UInt8 → List (UInt8 × UInt8)
  | [], _ => []
  | _, [] => []
  | c :: set, [last] => (c, last) :: pairs set [last]
  | c :: set, replacement :: rest => (c, replacement) :: pairs set rest

def replacements (set other : List UInt8) : List (UInt8 × UInt8) :=
  (pairs set other).reverse

end JobControl.Machine.ByteSet
