/-!
# Bounded numerals

A numeral is an optional plus sign and one or more ASCII digits; leading zeros do not count.
The places that read one accept the positive numbers up to a bound of theirs.  A numeral is
evaluated in full before it is compared with the bound, so no numeral is too long to be judged.
-/

namespace JobControl.Text

def digit? (c : Char) : Option Nat :=
  if '0' ≤ c ∧ c ≤ '9' then some (c.toNat - '0'.toNat) else none

/-- The value of a row of digits that follows digits of value `soFar`. -/
def digitsFrom? (soFar : Nat) : List Char → Option Nat
  | [] => some soFar
  | c :: rest => (digit? c).bind fun d => digitsFrom? (10 * soFar + d) rest

def digits? : List Char → Option Nat
  | [] => none
  | c :: rest => digitsFrom? 0 (c :: rest)

/-- The value of a numeral: one plus sign may stand before the digits. -/
def numeral? : List Char → Option Nat
  | '+' :: rest => digits? rest
  | text => digits? text

/-- The value of a numeral that lies between one and `largest`. -/
def positiveUpTo? (largest : Nat) (text : List Char) : Option Nat :=
  (numeral? text).filter fun n => 1 ≤ n ∧ n ≤ largest

end JobControl.Text
