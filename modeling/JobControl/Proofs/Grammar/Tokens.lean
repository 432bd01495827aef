import Mathlib.Data.List.TakeWhile
import JobControl.Token
/-!
# Where the tokens of a line come from

A blank ends whatever stands before it, so that the tokens of a line are those of its stretches
between blanks, one stretch after the other.  Every line is read by this rule and by the rule for
a longest run of ordinary characters; blanks around a line do not change its tokens.
-/

namespace JobControl

/-- A text that stands in a line as one word. -/
def IsWord (text : String) : Prop :=
  text ≠ "" ∧ ∀ c ∈ text.toList, Text.isBlank c = false ∧ c ∉ ['|', '&', '<', '>']

namespace Token

open Text

/-! ## Kinds of characters -/

private theorem operator?_eq_none_iff (c : Char) :
    operator? c = none ↔ c ∉ ['|', '&', '<', '>'] := by
  unfold operator?
  split <;> simp_all

theorem isOrdinary_iff (c : Char) :
    isOrdinary c = true ↔ isBlank c = false ∧ c ∉ ['|', '&', '<', '>'] := by
  rw [isOrdinary, Bool.and_eq_true, Bool.not_eq_true', Option.isNone_iff_eq_none,
    operator?_eq_none_iff]

private theorem isBlank_operator {c : Char} {token : Token} (operator : operator? c = some token) :
    isBlank c = false := by
  unfold operator? at operator
  split at operator <;> first | rfl | cases operator

private theorem operator?_blank {blank : Char} (isBlank : isBlank blank = true) :
    operator? blank = none := by
  cases operator : operator? blank with
  | none => rfl
  | some token =>
      rw [isBlank_operator operator] at isBlank
      cases isBlank

private theorem isOrdinary_blank {blank : Char} (isBlank : isBlank blank = true) :
    isOrdinary blank = false := by
  simp [isOrdinary, isBlank]

/-! ## Runs of ordinary characters -/

/-- A list of characters at which a run of ordinary characters ends. -/
def EndsRun (after : List Char) : Prop :=
  ∀ c, after.head? = some c → isOrdinary c = false

theorem endsRun_nil : EndsRun [] :=
  fun _ equal => nomatch equal

theorem endsRun_blank {blank : Char} (isBlank : isBlank blank = true) (rest : List Char) :
    EndsRun (blank :: rest) := by
  rintro c ⟨rfl⟩
  exact isOrdinary_blank isBlank

private theorem endsRun_dropWhile (line : List Char) : EndsRun (line.dropWhile isOrdinary) := by
  intro c first
  have stopped := List.head?_dropWhile_not isOrdinary line
  rw [first] at stopped
  simpa using stopped

private theorem takeWhile_run {run after : List Char} (ordinary : ∀ c ∈ run, isOrdinary c = true)
    (ends : EndsRun after) : (run ++ after).takeWhile isOrdinary = run := by
  rw [List.takeWhile_append_of_pos ordinary]
  cases after with
  | nil => simp
  | cons c rest => simp [ends c rfl]

private theorem dropWhile_run {run after : List Char} (ordinary : ∀ c ∈ run, isOrdinary c = true)
    (ends : EndsRun after) : (run ++ after).dropWhile isOrdinary = after := by
  rw [List.dropWhile_append_of_pos ordinary]
  cases after with
  | nil => rfl
  | cons c rest => simp [ends c rfl]

/-! ## Scanning -/

@[simp]
theorem scan_nil : scan [] = [] := by
  rw [scan.eq_def]

/-- A longest run of ordinary characters is a word, or the first half of `2>`. -/
theorem scan_run {run after : List Char} (some_character : run ≠ [])
    (ordinary : ∀ c ∈ run, isOrdinary c = true) (ends : EndsRun after) :
    scan (run ++ after) =
      if run = ['2'] ∧ after.head? = some '>' then
        .errorOutput :: scan (after.drop 1)
      else
        .word (String.ofList run) :: scan after := by
  cases run with
  | nil => exact absurd rfl some_character
  | cons c others =>
      have others_ordinary : ∀ other ∈ others, isOrdinary other = true :=
        fun other member => ordinary other (List.mem_cons_of_mem c member)
      rw [List.cons_append, scan.eq_def]
      dsimp only
      rw [if_pos (ordinary c List.mem_cons_self),
        takeWhile_run others_ordinary ends, dropWhile_run others_ordinary ends]

theorem scan_operator {c : Char} {token : Token} (operator : operator? c = some token)
    (rest : List Char) : scan (c :: rest) = token :: scan rest := by
  rw [scan.eq_def]
  simp [isOrdinary, operator]

theorem scan_blank {blank : Char} (isBlank : isBlank blank = true) (rest : List Char) :
    scan (blank :: rest) = scan rest := by
  rw [scan.eq_def]
  simp [isOrdinary_blank isBlank, operator?_blank isBlank]

/-- Every line is empty, or starts with a blank, an operator or a longest run of ordinary
characters. -/
theorem line_cases {motive : List Char → Prop} (nil : motive [])
    (blank : ∀ c rest, isBlank c = true → motive rest → motive (c :: rest))
    (operator : ∀ c token rest, operator? c = some token → motive rest → motive (c :: rest))
    (run : ∀ run after, run ≠ [] → (∀ c ∈ run, isOrdinary c = true) → EndsRun after →
      motive after → motive (after.drop 1) → motive (run ++ after))
    (line : List Char) : motive line := by
  induction size : line.length using Nat.strongRecOn generalizing line with
  | ind length inductionHypothesis =>
      subst size
      cases line with
      | nil => exact nil
      | cons c rest =>
          have shorter : rest.length < (c :: rest).length := by simp
          by_cases ordinary : isOrdinary c = true
          · have split : rest.takeWhile isOrdinary ++ rest.dropWhile isOrdinary = rest :=
              List.takeWhile_append_dropWhile
            have dropped := (List.dropWhile_sublist isOrdinary (l := rest)).length_le
            have whole : c :: rest =
                (c :: rest.takeWhile isOrdinary) ++ rest.dropWhile isOrdinary := by
              rw [List.cons_append, split]
            rw [whole]
            refine run _ _ (List.cons_ne_nil _ _) ?_ (endsRun_dropWhile rest) ?_ ?_
            · intro other member
              rcases List.mem_cons.1 member with rfl | inside
              · exact ordinary
              · exact List.mem_takeWhile_imp inside
            · exact inductionHypothesis _ (by omega) _ rfl
            · exact inductionHypothesis _ (by rw [List.length_drop]; omega) _ rfl
          · have remains := inductionHypothesis _ shorter rest rfl
            cases sign : operator? c with
            | some token => exact operator c token rest sign remains
            | none =>
                refine blank c rest ?_ remains
                simpa [isOrdinary, sign] using ordinary

/-- A blank separates what is read before it from what is read after it. -/
theorem scan_append_blank {blank : Char} (isBlank : isBlank blank = true)
    (line rest : List Char) : scan (line ++ blank :: rest) = scan line ++ scan rest := by
  induction line using line_cases with
  | nil => rw [List.nil_append, scan_blank isBlank, scan_nil, List.nil_append]
  | blank c others first inductionHypothesis =>
      rw [List.cons_append, scan_blank first, scan_blank first, inductionHypothesis]
  | operator c token others first inductionHypothesis =>
      rw [List.cons_append, scan_operator first, scan_operator first, inductionHypothesis,
        List.cons_append]
  | run run after some_character ordinary ends afterHypothesis nextHypothesis =>
      have laterEnds : EndsRun (after ++ blank :: rest) := by
        cases after with
        | nil => exact endsRun_blank isBlank rest
        | cons c others => exact fun other first => ends other (by simpa using first)
      rw [List.append_assoc, scan_run some_character ordinary laterEnds,
        scan_run some_character ordinary ends]
      cases after with
      | nil =>
          have differs : blank ≠ '>' := by
            rintro rfl
            cases isBlank
          simp only [List.nil_append] at afterHypothesis
          simp [differs, afterHypothesis]
      | cons c others =>
          simp only [List.cons_append, List.head?_cons, List.drop_succ_cons, List.drop_zero]
            at afterHypothesis nextHypothesis ⊢
          split
          · rw [nextHypothesis, List.cons_append]
          · rw [afterHypothesis, List.cons_append]

/-! ## Blanks around a line -/

theorem scan_blanks_append {blanks : List Char} (all : ∀ c ∈ blanks, isBlank c = true)
    (line : List Char) : scan (blanks ++ line) = scan line := by
  induction blanks with
  | nil => rfl
  | cons c others inductionHypothesis =>
      obtain ⟨first, later⟩ := List.forall_mem_cons.1 all
      rw [List.cons_append, scan_blank first, inductionHypothesis later]

private theorem scan_append_blanks {blanks : List Char} (all : ∀ c ∈ blanks, isBlank c = true)
    (line : List Char) : scan (line ++ blanks) = scan line := by
  cases blanks with
  | nil => rw [List.append_nil]
  | cons c others =>
      obtain ⟨first, later⟩ := List.forall_mem_cons.1 all
      have nothing := scan_blanks_append later []
      rw [List.append_nil, scan_nil] at nothing
      rw [scan_append_blank first, nothing, List.append_nil]

/-- Trimming takes nothing but blanks away. -/
theorem exists_blanks_around (line : List Char) :
    ∃ front back, line = front ++ trimBlanks line ++ back ∧
      (∀ c ∈ front, isBlank c = true) ∧ ∀ c ∈ back, isBlank c = true := by
  refine ⟨line.takeWhile isBlank, ((line.dropWhile isBlank).reverse.takeWhile isBlank).reverse,
    ?_, fun c => List.mem_takeWhile_imp, fun c member => ?_⟩
  · rw [trimBlanks, List.append_assoc, ← List.reverse_append, List.takeWhile_append_dropWhile,
      List.reverse_reverse, List.takeWhile_append_dropWhile]
  · exact List.mem_takeWhile_imp (List.mem_reverse.1 member)

private theorem scan_trimBlanks (line : List Char) : scan (trimBlanks line) = scan line := by
  obtain ⟨front, back, whole, frontBlank, backBlank⟩ := exists_blanks_around line
  calc scan (trimBlanks line)
      = scan (front ++ trimBlanks line) := (scan_blanks_append frontBlank _).symm
    _ = scan (front ++ trimBlanks line ++ back) := (scan_append_blanks backBlank _).symm
    _ = scan line := by rw [← whole]

theorem ofText_trim (line : String) : ofText (trim line) = ofText line := by
  rw [ofText, toList_trim, scan_trimBlanks, ofText]

/-! ## The words of a line -/

theorem isWord_ofList {run : List Char} (some_character : run ≠ [])
    (ordinary : ∀ c ∈ run, isOrdinary c = true) : IsWord (String.ofList run) := by
  refine ⟨?_, fun c member => (isOrdinary_iff c).1 (ordinary c (by simpa using member))⟩
  simpa [← String.toList_inj] using some_character

private theorem isWord_of_mem_scan {line : List Char} {text : String}
    (member : .word text ∈ scan line) : IsWord text := by
  induction line using line_cases with
  | nil =>
      rw [scan_nil] at member
      cases member
  | blank c rest first inductionHypothesis =>
      rw [scan_blank first] at member
      exact inductionHypothesis member
  | operator c token rest first inductionHypothesis =>
      rw [scan_operator first] at member
      rcases List.mem_cons.1 member with rfl | later
      · unfold operator? at first
        split at first <;> cases first
      · exact inductionHypothesis later
  | run run after some_character ordinary ends afterHypothesis nextHypothesis =>
      rw [scan_run some_character ordinary ends] at member
      split at member
      · rcases List.mem_cons.1 member with equal | later
        · cases equal
        · exact nextHypothesis later
      · rcases List.mem_cons.1 member with equal | later
        · cases equal
          exact isWord_ofList some_character ordinary
        · exact afterHypothesis later

theorem isWord_of_mem_ofText {line text : String} (member : .word text ∈ ofText line) :
    IsWord text :=
  isWord_of_mem_scan member

end Token

end JobControl
