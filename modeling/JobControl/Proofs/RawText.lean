import JobControl.Text.Raw
import Mathlib.Tactic.SplitIfs
/-!
# How raw text is shown

A text is shown as itself: its bytes are read character by character, and each character comes out
as it went in.  So raw text is a text exactly if it is the raw text of one, and raw text that is
not UTF-8 is never shown as what it is.
-/

namespace JobControl

namespace Text

open PartialChar

variable {byte : UInt8} {rest : List UInt8}

/-! ## Reading byte by byte -/

private theorem readLossyFrom_single (single : byte.toNat < 0x80) :
    readLossyFrom none (byte :: rest) = Char.ofNat byte.toNat :: readLossyFrom none rest := by
  rw [readLossyFrom]
  simp only [if_pos single, List.nil_append]

private theorem readLossyFrom_leader {begun : PartialChar} (several : 0x80 ≤ byte.toNat)
    (leads : ofLeader? byte.toNat = some begun) :
    readLossyFrom none (byte :: rest) = readLossyFrom (some begun) rest := by
  rw [readLossyFrom]
  simp only [if_neg (Nat.not_lt.2 several), leads, List.nil_append]

private theorem readLossyFrom_last {bits least greatest : Nat} (low : least ≤ byte.toNat)
    (high : byte.toNat ≤ greatest) :
    readLossyFrom (some ⟨bits, 1, least, greatest⟩) (byte :: rest) =
      Char.ofNat (bits * 64 + (byte.toNat - 0x80)) :: readLossyFrom none rest := by
  rw [readLossyFrom]
  simp only [low, high, and_self, if_true]

private theorem readLossyFrom_more {bits missing least greatest : Nat} (low : least ≤ byte.toNat)
    (high : byte.toNat ≤ greatest) :
    readLossyFrom (some ⟨bits, missing + 2, least, greatest⟩) (byte :: rest) =
      readLossyFrom (some ⟨bits * 64 + (byte.toNat - 0x80), missing + 1, 0x80, 0xBF⟩) rest := by
  rw [readLossyFrom]
  simp only [low, high, and_self, if_true, show missing + 2 ≠ 1 by omega, if_false]
  rfl

private theorem ofLeader?_two {leader : Nat} (low : 0xC2 ≤ leader) (high : leader ≤ 0xDF) :
    ofLeader? leader = some ⟨leader - 0xC0, 1, 0x80, 0xBF⟩ :=
  if_pos ⟨low, high⟩

/-- The leaders of three bytes: the bounds on the second byte are those that keep it from spelling
out too much, or a surrogate. -/
private theorem ofLeader?_three (leader second : Nat) (low : 0xE0 ≤ leader) (high : leader ≤ 0xEF)
    (continues : 0x80 ≤ second ∧ second ≤ 0xBF) (needed : leader = 0xE0 → 0xA0 ≤ second)
    (scalar : leader = 0xED → second ≤ 0x9F) :
    ∃ least greatest, ofLeader? leader = some ⟨leader - 0xE0, 2, least, greatest⟩ ∧
      least ≤ second ∧ second ≤ greatest := by
  unfold ofLeader?
  rw [if_neg (by omega)]
  by_cases first : leader = 0xE0
  · subst first
    exact ⟨_, _, rfl, needed rfl, continues.2⟩
  · rw [if_neg first]
    by_cases surrogates : leader = 0xED
    · subst surrogates
      exact ⟨_, _, rfl, continues.1, scalar rfl⟩
    · rw [if_neg surrogates, if_pos (by omega)]
      exact ⟨_, _, rfl, continues⟩

/-- The leaders of four bytes: the bounds on the second byte are those that keep it from spelling
out too much, or more than the last code point. -/
private theorem ofLeader?_four (leader second : Nat) (low : 0xF0 ≤ leader) (high : leader ≤ 0xF4)
    (continues : 0x80 ≤ second ∧ second ≤ 0xBF) (needed : leader = 0xF0 → 0x90 ≤ second)
    (scalar : leader = 0xF4 → second ≤ 0x8F) :
    ∃ least greatest, ofLeader? leader = some ⟨leader - 0xF0, 3, least, greatest⟩ ∧
      least ≤ second ∧ second ≤ greatest := by
  unfold ofLeader?
  rw [if_neg (by omega), if_neg (by omega), if_neg (by omega), if_neg (by omega)]
  by_cases first : leader = 0xF0
  · subst first
    exact ⟨_, _, rfl, needed rfl, continues.2⟩
  · rw [if_neg first]
    by_cases final : leader = 0xF4
    · subst final
      exact ⟨_, _, rfl, continues.1, scalar rfl⟩
    · rw [if_pos (by omega)]
      exact ⟨_, _, rfl, continues⟩

/-! ## Reading what was written -/

private theorem toNat_byte (value : Nat) (fits : value < 256) :
    (UInt8.ofNat value).toNat = value := by
  rw [UInt8.toNat_ofNat']
  exact Nat.mod_eq_of_lt fits

/-- A character is a number up to the last code point that is no surrogate. -/
private theorem scalar_bounds (c : Char) :
    c.toNat < 0xD800 ∨ 0xDFFF < c.toNat ∧ c.toNat < 0x110000 :=
  c.valid

/-- The bytes of a character are read as the character. -/
theorem readLossyFrom_utf8EncodeChar (c : Char) (rest : List UInt8) :
    readLossyFrom none (String.utf8EncodeChar c ++ rest) = c :: readLossyFrom none rest := by
  have bounds := scalar_bounds c
  have same : Char.ofNat c.toNat = c := Char.ofNat_toNat c
  unfold String.utf8EncodeChar
  rw [show c.val.toNat = c.toNat from rfl]
  generalize c.toNat = value at bounds same ⊢
  subst same
  dsimp only
  split_ifs with one two three
  · have read := toNat_byte value (by omega)
    rw [List.singleton_append, readLossyFrom_single (by omega), read]
  · have leader := toNat_byte (value / 64 % 32 + 192) (by omega)
    have second := toNat_byte (value % 64 + 128) (by omega)
    have number : (value / 64 % 32 + 192 - 0xC0) * 64 + (value % 64 + 128 - 0x80) = value := by
      omega
    rw [List.cons_append, List.singleton_append,
      readLossyFrom_leader (by omega) (ofLeader?_two (by omega) (by omega)),
      readLossyFrom_last (by omega) (by omega), leader, second, number]
  · have leader := toNat_byte (value / 4096 % 16 + 224) (by omega)
    have second := toNat_byte (value / 64 % 64 + 128) (by omega)
    have third := toNat_byte (value % 64 + 128) (by omega)
    have number : ((value / 4096 % 16 + 224 - 0xE0) * 64 + (value / 64 % 64 + 128 - 0x80)) * 64 +
        (value % 64 + 128 - 0x80) = value := by
      omega
    obtain ⟨least, greatest, leads, low, high⟩ :=
      ofLeader?_three (UInt8.ofNat (value / 4096 % 16 + 224)).toNat
        (UInt8.ofNat (value / 64 % 64 + 128)).toNat (by omega) (by omega) (by omega)
        (by omega) (by omega)
    rw [List.cons_append, List.cons_append, List.singleton_append,
      readLossyFrom_leader (by omega) leads, readLossyFrom_more low high,
      readLossyFrom_last (by omega) (by omega), leader, second, third, number]
  · have leader := toNat_byte (value / 262144 % 8 + 240) (by omega)
    have second := toNat_byte (value / 4096 % 64 + 128) (by omega)
    have third := toNat_byte (value / 64 % 64 + 128) (by omega)
    have fourth := toNat_byte (value % 64 + 128) (by omega)
    have number : (((value / 262144 % 8 + 240 - 0xF0) * 64 +
        (value / 4096 % 64 + 128 - 0x80)) * 64 + (value / 64 % 64 + 128 - 0x80)) * 64 +
        (value % 64 + 128 - 0x80) = value := by
      omega
    obtain ⟨least, greatest, leads, low, high⟩ :=
      ofLeader?_four (UInt8.ofNat (value / 262144 % 8 + 240)).toNat
        (UInt8.ofNat (value / 4096 % 64 + 128)).toNat (by omega) (by omega) (by omega)
        (by omega) (by omega)
    rw [List.cons_append, List.cons_append, List.cons_append, List.singleton_append,
      readLossyFrom_leader (by omega) leads, readLossyFrom_more low high,
      readLossyFrom_more (by omega) (by omega), readLossyFrom_last (by omega) (by omega), leader,
      second, third, fourth, number]

private theorem readLossyFrom_flatMap_utf8EncodeChar (text : List Char) :
    readLossyFrom none (text.flatMap String.utf8EncodeChar) = text := by
  induction text with
  | nil => rfl
  | cons c rest inductionHypothesis =>
      rw [List.flatMap_cons, readLossyFrom_utf8EncodeChar, inductionHypothesis]

end Text

namespace RawText

/-- A text is shown as itself. -/
@[simp]
theorem shown_ofText (text : String) : (ofText text).shown = text := by
  unfold shown ofText
  rw [Text.readLossyFrom_flatMap_utf8EncodeChar, String.ofList_toList]

/-- Raw text is a text if it is the raw text of one, and of no other. -/
theorem text?_eq_some_iff {raw : RawText} {text : String} :
    raw.text? = some text ↔ raw = ofText text := by
  unfold text?
  constructor
  · intro isText
    split_ifs at isText with same
    cases isText
    exact same.symm
  · rintro rfl
    rw [shown_ofText, if_pos rfl]

end RawText

end JobControl
