import JobControl.Builtin
import JobControl.Proofs.Grammar.RoundTrip
import JobControl.Settings
import Mathlib.Data.Nat.Digits.Defs
/-!
# Numerals in range

The limit of background jobs and the number of a process are given as numerals.  Both readers accept
exactly the numerals of positive numbers up to a bound, whatever their length, and answer any other
text with a failure that names the text as it was given.  Only the reader of the limit passes over
blanks around the numeral.
-/

namespace JobControl

namespace Text

/-! ## What a numeral denotes -/

/-- The number of a row of digits: each digit counts ten times as much as the one behind it. -/
def valueOf (digits : List Char) : Nat :=
  Nat.ofDigits 10 (digits.reverse.map fun c => c.toNat - '0'.toNat)

/-- A numeral and its number.  Zeros may stand before the other digits, and a plus sign before
all. -/
inductive Denotes : List Char → Nat → Prop where
  | digits {row : List Char} (some_digit : row ≠ []) (all : ∀ c ∈ row, c.isDigit = true) :
      Denotes row (valueOf row)
  | signed {row : List Char} (some_digit : row ≠ []) (all : ∀ c ∈ row, c.isDigit = true) :
      Denotes ('+' :: row) (valueOf row)

@[simp]
theorem valueOf_nil : valueOf [] = 0 :=
  rfl

private theorem valueOf_cons (c : Char) (rest : List Char) :
    valueOf (c :: rest) = (c.toNat - '0'.toNat) * 10 ^ rest.length + valueOf rest := by
  unfold valueOf
  rw [List.reverse_cons, List.map_append, List.map_singleton, Nat.ofDigits_append,
    Nat.ofDigits_singleton, List.length_map, List.length_reverse, Nat.mul_comm, Nat.add_comm]

private theorem digit?_eq_some_iff {c : Char} {d : Nat} :
    digit? c = some d ↔ c.isDigit = true ∧ d = c.toNat - '0'.toNat := by
  have ascii : c.isDigit = true ↔ '0' ≤ c ∧ c ≤ '9' := by
    constructor <;> intro h <;> simpa [Char.isDigit, Char.le_def] using h
  unfold digit?
  by_cases inRange : '0' ≤ c ∧ c ≤ '9'
  · rw [if_pos inRange, Option.some.injEq]
    constructor
    · rintro rfl
      exact ⟨ascii.2 inRange, rfl⟩
    · rintro ⟨-, rfl⟩
      rfl
  · rw [if_neg inRange]
    constructor
    · intro impossible
      cases impossible
    · rintro ⟨isDigit, -⟩
      exact absurd (ascii.1 isDigit) inRange

/-- Digits that follow others of a value add theirs to it, each shifted by one place. -/
theorem digitsFrom?_eq_some_iff {soFar n : Nat} {row : List Char} :
    digitsFrom? soFar row = some n ↔
      (∀ c ∈ row, c.isDigit = true) ∧ n = soFar * 10 ^ row.length + valueOf row := by
  induction row generalizing soFar with
  | nil =>
      rw [digitsFrom?, Option.some.injEq]
      simp [@eq_comm _ n]
  | cons c rest inductionHypothesis =>
      have shifted : ∀ d, (10 * soFar + d) * 10 ^ rest.length + valueOf rest =
          soFar * 10 ^ (c :: rest).length + (d * 10 ^ rest.length + valueOf rest) := by
        intro d
        rw [List.length_cons, pow_succ]
        ring
      rw [digitsFrom?, Option.bind_eq_some_iff]
      constructor
      · rintro ⟨d, first, later⟩
        obtain ⟨isDigit, rfl⟩ := digit?_eq_some_iff.1 first
        obtain ⟨others, rfl⟩ := inductionHypothesis.1 later
        refine ⟨List.forall_mem_cons.2 ⟨isDigit, others⟩, ?_⟩
        rw [shifted, valueOf_cons]
      · rintro ⟨all, rfl⟩
        obtain ⟨isDigit, others⟩ := List.forall_mem_cons.1 all
        refine ⟨_, digit?_eq_some_iff.2 ⟨isDigit, rfl⟩, inductionHypothesis.2 ⟨others, ?_⟩⟩
        rw [shifted, valueOf_cons]

private theorem digits?_eq_some_iff {n : Nat} {row : List Char} :
    digits? row = some n ↔
      row ≠ [] ∧ (∀ c ∈ row, c.isDigit = true) ∧ n = valueOf row := by
  cases row with
  | nil => simp [digits?]
  | cons c rest => simp [digits?, digitsFrom?_eq_some_iff]

private theorem numeral?_eq_some_iff {text : List Char} {n : Nat} :
    numeral? text = some n ↔ Denotes text n := by
  unfold numeral?
  split
  · rename_i rest
    rw [digits?_eq_some_iff]
    constructor
    · rintro ⟨some_digit, all, rfl⟩
      exact .signed some_digit all
    · intro denotes
      cases denotes with
      | digits _ all => exact absurd (all '+' List.mem_cons_self) (by decide)
      | signed some_digit all => exact ⟨some_digit, all, rfl⟩
  · rename_i unsigned
    rw [digits?_eq_some_iff]
    constructor
    · rintro ⟨some_digit, all, rfl⟩
      exact .digits some_digit all
    · intro denotes
      cases denotes with
      | digits some_digit all => exact ⟨some_digit, all, rfl⟩
      | signed _ _ => exact absurd rfl (unsigned _)

theorem positiveUpTo?_eq_some_iff {largest n : Nat} {text : List Char} :
    positiveUpTo? largest text = some n ↔ Denotes text n ∧ 1 ≤ n ∧ n ≤ largest := by
  rw [positiveUpTo?, Option.filter_eq_some_iff, numeral?_eq_some_iff, decide_eq_true_iff]

/-- A text denotes at most one number. -/
theorem Denotes.unique {text : List Char} {n other : Nat} (denotes : Denotes text n)
    (also : Denotes text other) : n = other :=
  Option.some.inj ((numeral?_eq_some_iff.2 denotes).symm.trans (numeral?_eq_some_iff.2 also))

/-- The value of a row of digits is what reading it digit by digit adds up to. -/
theorem ofDigitChars_eq (soFar : Nat) (row : List Char) :
    Nat.ofDigitChars 10 row soFar = soFar * 10 ^ row.length + valueOf row := by
  induction row generalizing soFar with
  | nil => simp [Nat.ofDigitChars]
  | cons c rest inductionHypothesis =>
      rw [Nat.ofDigitChars_cons, inductionHypothesis, valueOf_cons, List.length_cons, pow_succ]
      ring

private theorem valueOf_toDigits (n : Nat) : valueOf (Nat.toDigits 10 n) = n := by
  have read := ofDigitChars_eq 0 (Nat.toDigits 10 n)
  rw [Nat.ofDigitChars_toDigits (by decide) (by decide), Nat.zero_mul, Nat.zero_add] at read
  exact read.symm

private theorem isDigit_toDigits (n : Nat) : ∀ c ∈ Nat.toDigits 10 n, c.isDigit = true :=
  fun _ member => Nat.isDigit_of_mem_toDigits (by decide) (by decide) member

/-- What is written for a natural number denotes it. -/
theorem denotes_toDigits (n : Nat) : Denotes (Nat.toDigits 10 n) n := by
  have some_digit : Nat.toDigits 10 n ≠ [] := by simp
  have denotes := Denotes.digits some_digit (isDigit_toDigits n)
  rwa [valueOf_toDigits] at denotes

/-! ## Blanks around a numeral -/

/-- What is left of a text without the blanks before and behind it. -/
def IsBetweenBlanks (text body : List Char) : Prop :=
  IsTrimmed body ∧ ∃ front back, text = front ++ body ++ back ∧
    (∀ c ∈ front, isBlank c = true) ∧ ∀ c ∈ back, isBlank c = true

private theorem isBetweenBlanks_iff {text body : List Char} :
    IsBetweenBlanks text body ↔ body = trimBlanks text := by
  constructor
  · rintro ⟨trimmed, front, back, rfl, frontBlank, backBlank⟩
    have backBlankToo : ∀ c ∈ back.reverse, isBlank c = true := by simpa using backBlank
    cases body with
    | nil =>
        have nothing : (front ++ [] ++ back).dropWhile isBlank = [] := by
          rw [List.dropWhile_eq_nil_iff]
          simpa [or_imp, forall_and] using ⟨frontBlank, backBlank⟩
        rw [trimBlanks, nothing]
        rfl
    | cons c rest =>
        have head : isBlank c = false := trimmed.1 c rfl
        have begins : (front ++ (c :: rest) ++ back).dropWhile isBlank = (c :: rest) ++ back := by
          rw [List.append_assoc, List.dropWhile_append_of_pos frontBlank, List.cons_append,
            List.dropWhile_cons_of_neg (by simp [head])]
        have ends : ∀ d, (c :: rest).reverse.head? = some d → isBlank d = false := by
          simpa only [List.head?_reverse] using trimmed.2
        rw [trimBlanks, begins, List.reverse_append, List.dropWhile_append_of_pos backBlankToo,
          dropWhile_eq_self_of_head ends, List.reverse_reverse]
  · rintro rfl
    exact ⟨isTrimmed_trimBlanks text, Token.exists_blanks_around text⟩

/-- Digits are not blank, so a row of them has no blanks around it. -/
theorem isTrimmed_of_digits {row : List Char} (all : ∀ c ∈ row, c.isDigit = true) :
    IsTrimmed row := by
  have unblank : ∀ c ∈ row, isBlank c = false := by
    intro c member
    have isDigit := all c member
    have code : 48 ≤ c.toNat ∧ c.toNat ≤ 57 := by
      simpa [Char.isDigit, UInt32.le_iff_toNat_le] using isDigit
    simp only [isBlank]
    grind
  exact ⟨fun c first => unblank c (List.mem_of_head? first),
    fun c last => unblank c (List.mem_of_getLast? last)⟩

/-! ## Readers of numerals -/

/-- A text denotes a number that is positive and not too large. -/
def DenotesUpTo (largest : Nat) (text : List Char) (n : Nat) : Prop :=
  Denotes text n ∧ 1 ≤ n ∧ n ≤ largest

/-- What a reader of numerals answers, to any text whatever: it reads the numeral that the text
`holds`, and `refusal` is its failure. -/
structure ReadsNumerals {Result : Type} (read : String → Except Failure Result)
    (holds : List Char → List Char → Prop) (named : Nat → Result) (largest : Nat)
    (refusal : String → Failure) : Prop where
  accepts : ∀ text result, read text = .ok result ↔
    ∃ body n, holds text.toList body ∧ DenotesUpTo largest body n ∧ result = named n
  refuses : ∀ text, (¬ ∃ body n, holds text.toList body ∧ DenotesUpTo largest body n) →
    read text = .error (refusal text)
  /-- Every number in range is read back from what is written for it. -/
  written : ∀ n, 1 ≤ n → n ≤ largest → read (toString n) = .ok (named n)
  /-- However long a row of digits is, it does not come out as some smaller number. -/
  tooLarge : ∀ text : String, (∀ c ∈ text.toList, c.isDigit = true) →
    largest < valueOf text.toList → read text = .error (refusal text)

section

variable {Result : Type} {read : String → Except Failure Result}
  {strip : List Char → List Char} {named : Nat → Result} {largest : Nat}
  {refusal : String → Failure}

/-- A reader that strips a text and then looks for a numeral in range reads numerals, if it leaves
rows of digits as they are. -/
theorem readsNumerals_of_strip
    (reads : ∀ text : String, read text =
      match positiveUpTo? largest (strip text.toList) with
      | some n => .ok (named n)
      | none => .error (refusal text))
    (keepsDigits : ∀ row, (∀ c ∈ row, c.isDigit = true) → strip row = row) :
    ReadsNumerals read (fun text body => body = strip text) named largest refusal := by
  have reads_some : ∀ {text : String} {n : Nat}, DenotesUpTo largest (strip text.toList) n →
      read text = .ok (named n) := by
    intro text n inRange
    rw [reads, positiveUpTo?_eq_some_iff.2 inRange]
  have reads_none : ∀ {text : String}, (∀ n, ¬ DenotesUpTo largest (strip text.toList) n) →
      read text = .error (refusal text) := by
    intro text outside
    have nothing : positiveUpTo? largest (strip text.toList) = none :=
      Option.eq_none_iff_forall_ne_some.2 fun n found =>
        outside n (positiveUpTo?_eq_some_iff.1 found)
    rw [reads, nothing]
  have digits_only : ∀ {text : String}, (∀ c ∈ text.toList, c.isDigit = true) →
      strip text.toList = text.toList := keepsDigits _
  refine ⟨fun text result => ⟨fun accepted => ?_, ?_⟩, fun text outside => ?_,
    fun n positive bounded => ?_, fun text all beyond => ?_⟩
  · by_cases inRange : ∃ n, DenotesUpTo largest (strip text.toList) n
    · obtain ⟨n, denotes⟩ := inRange
      rw [reads_some denotes] at accepted
      cases accepted
      exact ⟨_, n, rfl, denotes, rfl⟩
    · rw [reads_none (not_exists.1 inRange)] at accepted
      cases accepted
  · rintro ⟨_, n, rfl, inRange, rfl⟩
    exact reads_some inRange
  · exact reads_none fun n inRange => outside ⟨_, n, rfl, inRange⟩
  · have text : (toString n).toList = Nat.toDigits 10 n := Nat.toList_repr
    refine reads_some ⟨?_, positive, bounded⟩
    rw [digits_only (text ▸ isDigit_toDigits n), text]
    exact denotes_toDigits n
  · refine reads_none fun n inRange => ?_
    obtain ⟨denotes, -, bounded⟩ := inRange
    rw [digits_only all] at denotes
    have some_digit : text.toList ≠ [] := by
      intro none
      rw [none] at beyond
      exact absurd beyond (Nat.not_lt_zero _)
    have value := denotes.unique (.digits some_digit all)
    omega

end

end Text

/-- The limit of background jobs is any number that a word of the machine can hold, other than
zero, and blanks around it do not count; the number of a process is any positive one of 32 bits
with a sign, and stands alone.  A refusal names the text as it was given. -/
theorem numerals_in_range_are_read :
    Text.ReadsNumerals Settings.readLimit Text.IsBetweenBlanks id (2 ^ 64 - 1) .invalidLimit ∧
    Text.ReadsNumerals Builtin.readPid (fun text body => body = text) (fun n => ⟨n⟩) (2 ^ 31 - 1)
      .jobNotFound := by
  constructor
  · have between : Text.IsBetweenBlanks = fun text body => body = Text.trimBlanks text := by
      funext text body
      exact propext Text.isBetweenBlanks_iff
    rw [between]
    refine Text.readsNumerals_of_strip (fun text => ?_) fun row all =>
      trimBlanks_eq_self (Text.isTrimmed_of_digits all)
    unfold Settings.readLimit
    rw [Text.toList_trim]
    rfl
  · have keepsDigits : ∀ row : List Char, (∀ c ∈ row, c.isDigit = true) → id row = row :=
      fun _ _ => rfl
    exact Text.readsNumerals_of_strip (fun text => rfl) keepsDigits

example : Settings.readLimit " +007\n" = .ok 7 := by
  decide

end JobControl
