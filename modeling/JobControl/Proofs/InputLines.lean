import JobControl.LineEditor
import JobControl.Machine.Filter
/-!
# The lines of a text in the standard input

The standard input is cut into lines as bytes, a text as characters.  Where the input holds a text,
both give the same lines: no character but a line feed is encoded with the byte of one.  A line
that is read is the line of the text, unless a backspace stands in it.
-/

namespace JobControl

open Machine

/-- The lines of an input, each with its ending. -/
def inputLines (input : ByteArray) : List ByteArray :=
  (cutAfterLineFeeds input.data.toList).map bytesOf

/-- The lines that can be read before one that cannot, if there is one. -/
def readableLines : List ByteArray → List String
  | [] => []
  | bytes :: rest =>
      match LineEditor.decode bytes with
      | .ok line => line :: readableLines rest
      | .error _ => []

theorem readableLines_cons_of_ok {bytes : ByteArray} {line : String}
    (decoded : LineEditor.decode bytes = .ok line) (rest : List ByteArray) :
    readableLines (bytes :: rest) = line :: readableLines rest := by
  rw [readableLines, decoded]

theorem readableLines_cons_of_error {bytes : ByteArray} {fault : AccessFault}
    (decoded : LineEditor.decode bytes = .error fault) (rest : List ByteArray) :
    readableLines (bytes :: rest) = [] := by
  rw [readableLines, decoded]

/-- What can be read after some lines is what could be read after them before. -/
theorem readableLines_drop {lines : List ByteArray} {taken : Nat}
    (enough : taken ≤ (readableLines lines).length) :
    readableLines (lines.drop taken) = (readableLines lines).drop taken := by
  induction lines generalizing taken with
  | nil => rw [List.drop_nil, readableLines, List.drop_nil]
  | cons bytes rest inductionHypothesis =>
      cases taken with
      | zero => rfl
      | succ taken =>
          cases decoded : LineEditor.decode bytes with
          | ok line =>
              rw [readableLines_cons_of_ok decoded] at enough ⊢
              exact inductionHypothesis (Nat.le_of_succ_le_succ enough)
          | error fault =>
              rw [readableLines_cons_of_error decoded] at enough
              exact absurd enough (Nat.not_succ_le_zero taken)

/-! ## Cutting bytes and cutting characters -/

/-- What stands before a line feed is part of the first line. -/
theorem cutAfterLineFeeds_append {front : List UInt8} (nonempty : front ≠ [])
    (inside : lineFeed ∉ front) (rest : List UInt8) :
    cutAfterLineFeeds (front ++ rest) =
      match cutAfterLineFeeds rest with
      | [] => [front]
      | line :: lines => (front ++ line) :: lines := by
  induction front with
  | nil => exact absurd rfl nonempty
  | cons byte others inductionHypothesis =>
      rw [List.mem_cons, not_or] at inside
      obtain ⟨different, insideOthers⟩ := inside
      rw [List.cons_append, cutAfterLineFeeds, if_neg (Ne.symm different)]
      by_cases none : others = []
      · subst none
        rfl
      · rw [inductionHypothesis none insideOthers]
        cases cutAfterLineFeeds rest <;> rfl

private theorem lineFeed_ne_ofNat {n : Nat} (small : n < 256) (different : n ≠ 10) :
    lineFeed ≠ UInt8.ofNat n := by
  intro same
  have values : (10 : Nat) = n % 256 := congrArg UInt8.toNat same
  rw [Nat.mod_eq_of_lt small] at values
  exact different values.symm

/-- No character but the line feed is encoded with its byte. -/
theorem lineFeed_not_mem_utf8EncodeChar {c : Char} (different : c ≠ '\n') :
    lineFeed ∉ String.utf8EncodeChar c := by
  have other : c.val.toNat ≠ 10 := by
    intro same
    apply different
    apply Char.ext
    exact UInt32.toNat_inj.1 same
  unfold String.utf8EncodeChar
  dsimp only
  split
  · simpa using lineFeed_ne_ofNat (by omega) other
  split
  · simp only [List.mem_cons, List.not_mem_nil, or_false, not_or]
    exact ⟨lineFeed_ne_ofNat (by omega) (by omega), lineFeed_ne_ofNat (by omega) (by omega)⟩
  split
  · simp only [List.mem_cons, List.not_mem_nil, or_false, not_or]
    exact ⟨lineFeed_ne_ofNat (by omega) (by omega), lineFeed_ne_ofNat (by omega) (by omega),
      lineFeed_ne_ofNat (by omega) (by omega)⟩
  · simp only [List.mem_cons, List.not_mem_nil, or_false, not_or]
    exact ⟨lineFeed_ne_ofNat (by omega) (by omega), lineFeed_ne_ofNat (by omega) (by omega),
      lineFeed_ne_ofNat (by omega) (by omega), lineFeed_ne_ofNat (by omega) (by omega)⟩

private theorem utf8EncodeChar_ne_nil (c : Char) : String.utf8EncodeChar c ≠ [] := by
  unfold String.utf8EncodeChar
  dsimp only
  split
  · simp
  split
  · simp
  split
  · simp
  · simp

private theorem cutAfterLineFeeds_utf8Encode (text : List Char) :
    cutAfterLineFeeds (text.flatMap String.utf8EncodeChar) =
      (Text.cutLines text).map fun line => line.flatMap String.utf8EncodeChar := by
  fun_induction Text.cutLines text with
  | case1 => rfl
  | case2 rest inductionHypothesis =>
      have encoded : String.utf8EncodeChar '\n' = [lineFeed] := rfl
      rw [List.flatMap_cons, encoded, List.singleton_append, cutAfterLineFeeds, if_pos rfl,
        inductionHypothesis, List.map_cons, List.flatMap_singleton, encoded]
  | case3 c rest different noLines inductionHypothesis =>
      rw [List.flatMap_cons, cutAfterLineFeeds_append (utf8EncodeChar_ne_nil c)
        (lineFeed_not_mem_utf8EncodeChar different), inductionHypothesis, noLines]
      simp
  | case4 c rest different line lines cut inductionHypothesis =>
      rw [List.flatMap_cons, cutAfterLineFeeds_append (utf8EncodeChar_ne_nil c)
        (lineFeed_not_mem_utf8EncodeChar different), inductionHypothesis, cut]
      simp

/-! ## Reading a line of a text -/

private theorem bytesOf_flatMap (line : List Char) :
    bytesOf (line.flatMap String.utf8EncodeChar) = line.utf8Encode := by
  apply ByteArray.ext
  exact List.data_toByteArray.symm

private theorem fromUTF8?_utf8Encode (text : List Char) :
    String.fromUTF8? text.utf8Encode = some (String.ofList text) := by
  have valid : text.utf8Encode.IsValidUTF8 := ⟨text, rfl⟩
  rw [String.fromUTF8?, dif_pos valid]
  rfl

private theorem eraseInto_of_not_mem {kept clusters : List (List Char)}
    (none : ['\x08'] ∉ clusters) :
    LineEditor.eraseInto kept clusters = clusters.reverse ++ kept := by
  induction clusters generalizing kept with
  | nil => rfl
  | cons cluster rest inductionHypothesis =>
      rw [List.mem_cons, not_or] at none
      rw [LineEditor.eraseInto, if_neg (Ne.symm none.1), inductionHypothesis none.2]
      simp

/-- Without a backspace nothing is erased. -/
theorem applyBackspaces_of_not_mem {text : List Char} (none : '\x08' ∉ text) :
    LineEditor.applyBackspaces text = text := by
  have clusters : ['\x08'] ∉ Text.clusters text := by
    intro member
    apply none
    rw [← Text.flatten_clusters text]
    exact List.mem_flatten.2 ⟨_, member, List.mem_singleton.2 rfl⟩
  rw [LineEditor.applyBackspaces, eraseInto_of_not_mem clusters, List.append_nil,
    List.reverse_reverse, Text.flatten_clusters]

private theorem mem_of_mem_dropEnding {line : List Char} {c : Char}
    (member : c ∈ Text.dropEnding line) :
    c ∈ line := by
  rw [Text.dropEnding, List.mem_reverse] at member
  rw [← List.mem_reverse]
  generalize line.reverse = reversed at member ⊢
  unfold Text.dropEndingReversed at member
  split at member
  · exact List.mem_cons_of_mem _ (List.mem_cons_of_mem _ member)
  · exact List.mem_cons_of_mem _ member
  · exact member

private theorem decode_utf8Encode {line : List Char} (none : '\x08' ∉ line) :
    LineEditor.decode line.utf8Encode = .ok (String.ofList (Text.dropEnding line)) := by
  rw [LineEditor.decode, fromUTF8?_utf8Encode]
  dsimp only
  rw [LineEditor.lineOf, String.toList_ofList,
    applyBackspaces_of_not_mem fun member => none (mem_of_mem_dropEnding member)]

private theorem readableLines_of_utf8Encode {lines : List (List Char)}
    (none : ∀ line ∈ lines, '\x08' ∉ line) :
    readableLines (lines.map List.utf8Encode) =
      lines.map fun line => String.ofList (Text.dropEnding line) := by
  induction lines with
  | nil => rfl
  | cons line rest inductionHypothesis =>
      rw [List.forall_mem_cons] at none
      rw [List.map_cons, readableLines, decode_utf8Encode none.1]
      dsimp only
      rw [inductionHypothesis none.2, List.map_cons]

private theorem inputLines_toUTF8 (text : String) :
    inputLines text.toUTF8 = (Text.cutLines text.toList).map List.utf8Encode := by
  have encoded : text.toUTF8 = text.toList.utf8Encode :=
    (congrArg String.toByteArray String.ofList_toList.symm).trans String.toByteArray_ofList
  have bytes : text.toUTF8.data.toList = text.toList.flatMap String.utf8EncodeChar := by
    rw [encoded, List.utf8Encode, List.data_toByteArray]
  rw [inputLines, bytes, cutAfterLineFeeds_utf8Encode, List.map_map]
  exact List.map_congr_left fun line _ => bytesOf_flatMap line

/-- The lines that are read are the lines of the text. -/
theorem readableLines_inputLines {text : String} (none : '\x08' ∉ text.toList) :
    readableLines (inputLines text.toUTF8) = Text.lines text := by
  rw [inputLines_toUTF8]
  apply readableLines_of_utf8Encode
  intro line member inside
  apply none
  rw [← Text.flatten_cutLines text.toList]
  exact List.mem_flatten.2 ⟨line, member, inside⟩

end JobControl
