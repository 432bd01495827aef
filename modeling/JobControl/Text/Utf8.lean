/-!
# Reading bytes as text

Bytes that are not UTF-8 are shown with replacement characters: one for each longest run of bytes
that begins a character and cannot go on, and one for each byte that begins none.
-/

namespace JobControl.Text

/-- The sign shown in place of bytes that are no character. -/
def replacement : Char := '\uFFFD'

/-- A character of which some bytes have been read. -/
structure PartialChar where
  bits : Nat
  missing : Nat
  least : Nat
  greatest : Nat

/-- The character that a first byte of several begins.  The bounds on the second byte exclude
longer spellings than needed, surrogates and values past the last code point. -/
def PartialChar.ofLeader? (byte : Nat) : Option PartialChar :=
  if 0xC2 ≤ byte ∧ byte ≤ 0xDF then some ⟨byte - 0xC0, 1, 0x80, 0xBF⟩
  else if byte = 0xE0 then some ⟨0, 2, 0xA0, 0xBF⟩
  else if byte = 0xED then some ⟨0xD, 2, 0x80, 0x9F⟩
  else if 0xE1 ≤ byte ∧ byte ≤ 0xEF then some ⟨byte - 0xE0, 2, 0x80, 0xBF⟩
  else if byte = 0xF0 then some ⟨0, 3, 0x90, 0xBF⟩
  else if 0xF1 ≤ byte ∧ byte ≤ 0xF3 then some ⟨byte - 0xF0, 3, 0x80, 0xBF⟩
  else if byte = 0xF4 then some ⟨4, 3, 0x80, 0x8F⟩
  else none

/-- Reads bytes, where `pending` is a character begun before them. -/
def readLossyFrom : Option PartialChar → List UInt8 → List Char
  | none, [] => []
  | some _, [] => [replacement]
  | pending, byte :: rest =>
      let value := byte.toNat
      let fresh : List Char → List Char := fun before =>
        if value < 0x80 then
          before ++ Char.ofNat value :: readLossyFrom none rest
        else
          match PartialChar.ofLeader? value with
          | some begun => before ++ readLossyFrom (some begun) rest
          | none => before ++ replacement :: readLossyFrom none rest
      match pending with
      | none => fresh []
      | some begun =>
          if begun.least ≤ value ∧ value ≤ begun.greatest then
            let bits := begun.bits * 64 + (value - 0x80)
            if begun.missing = 1 then
              Char.ofNat bits :: readLossyFrom none rest
            else
              readLossyFrom (some ⟨bits, begun.missing - 1, 0x80, 0xBF⟩) rest
          else
            fresh [replacement]

def readLossy (bytes : ByteArray) : String :=
  String.ofList (readLossyFrom none bytes.toList)

end JobControl.Text
