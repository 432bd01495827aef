import Mathlib.Data.List.Chain
import JobControl.Proofs.Grammar.RoundTrip
/-!
# Lines as layouts

A layout writes tokens in a row, with blanks before the first and after each of them.  Two tokens
may touch unless they would run together: two words, a word and `2>`, and the word `2` and `>`.
Every line is such a layout of its tokens and of no others, so that blanks decide nothing about
the job that a line asks for.
-/

namespace JobControl

open Text

namespace Token

/-- Whether the two tokens would be read as something else if no blank stood between them. -/
def needsGap : Token → Token → Bool
  | .word _, .word _ | .word _, .errorOutput => true
  | .word text, .output => text == "2"
  | _, _ => false

private theorem spell_operator {c : Char} {token : Token} (operator : operator? c = some token) :
    token.spell.toList = [c] := by
  unfold operator? at operator
  split at operator <;> cases operator <;> simp [spell]

/-- A token is a word, `2>`, or an operator of one character. -/
theorem kind_cases (token : Token) :
    (∃ text, token = .word text) ∨ token = .errorOutput ∨ ∃ c, operator? c = some token := by
  cases token with
  | word text => exact .inl ⟨text, rfl⟩
  | errorOutput => exact .inr (.inl rfl)
  | pipe => exact .inr (.inr ⟨'|', rfl⟩)
  | input => exact .inr (.inr ⟨'<', rfl⟩)
  | output => exact .inr (.inr ⟨'>', rfl⟩)
  | background => exact .inr (.inr ⟨'&', rfl⟩)

private theorem isOrdinary_two : isOrdinary '2' = true := rfl

/-! ## What may follow a word -/

/-- The line that follows a word neither continues it nor makes `2>` of it. -/
structure MayFollow (text : String) (after : List Char) : Prop where
  ends : EndsRun after
  noSign : text = "2" → after.head? ≠ some '>'

private theorem mayFollow_nil (text : String) : MayFollow text [] :=
  ⟨endsRun_nil, fun _ equal => nomatch equal⟩

private theorem mayFollow_blank (text : String) {blank : Char} (isBlank : isBlank blank = true)
    (rest : List Char) : MayFollow text (blank :: rest) := by
  refine ⟨endsRun_blank isBlank rest, fun _ first => ?_⟩
  cases first
  cases isBlank

/-- A token may follow a word directly exactly if the two need no gap. -/
theorem mayFollow_spell_iff {token : Token} (wellFormed : ∀ text, token = .word text → IsWord text)
    (text : String) (rest : List Char) :
    MayFollow text (token.spell.toList ++ rest) ↔ (Token.word text).needsGap token = false := by
  rcases kind_cases token with ⟨other, rfl⟩ | rfl | ⟨c, operator⟩
  · obtain ⟨some_character, ordinary⟩ := wellFormed other rfl
    obtain ⟨c, others, characters⟩ : ∃ c others, other.toList = c :: others :=
      List.exists_cons_of_ne_nil (by simpa using some_character)
    have first : isOrdinary c = true :=
      (isOrdinary_iff c).2 (ordinary c (by rw [characters]; exact List.mem_cons_self))
    refine ⟨fun follows => ?_, fun apart => Bool.noConfusion apart⟩
    have stopped := follows.ends c (by simp [spell, characters])
    rw [first] at stopped
    cases stopped
  · refine ⟨fun follows => ?_, fun apart => Bool.noConfusion apart⟩
    have stopped := follows.ends '2' (by simp [spell])
    rw [isOrdinary_two] at stopped
    cases stopped
  · rw [spell_operator operator, List.singleton_append]
    have ends : EndsRun (c :: rest) := by
      rintro other ⟨rfl⟩
      simp [isOrdinary, operator]
    unfold operator? at operator
    split at operator <;> cases operator
    case h_4 =>
      by_cases two : text = "2"
      · simpa [needsGap, two] using fun follows : MayFollow "2" _ => follows.noSign rfl rfl
      · exact iff_of_true ⟨ends, fun equal => absurd equal two⟩ (by simpa [needsGap] using two)
    all_goals exact iff_of_true ⟨ends, fun _ => by simp⟩ rfl

/-- A token is read off the front of a line, whatever the line goes on with, as long as it may
follow the token. -/
theorem scan_spell_append {token : Token} (wellFormed : ∀ text, token = .word text → IsWord text)
    {after : List Char} (follows : ∀ text, token = .word text → MayFollow text after) :
    scan (token.spell.toList ++ after) = token :: scan after := by
  rcases kind_cases token with ⟨text, rfl⟩ | rfl | ⟨c, operator⟩
  · obtain ⟨some_character, ordinary⟩ := wellFormed text rfl
    obtain ⟨ends, noSign⟩ := follows text rfl
    have some_run : text.toList ≠ [] := by simpa using some_character
    have noErrorSign : ¬(text.toList = ['2'] ∧ after.head? = some '>') := by
      rintro ⟨two, sign⟩
      exact noSign (String.toList_inj.1 (by simpa using two)) sign
    have run := scan_run some_run (fun c member => (isOrdinary_iff c).2 (ordinary c member)) ends
    rwa [if_neg noErrorSign, String.ofList_toList] at run
  · have ordinary : ∀ c ∈ ['2'], isOrdinary c = true := by
      intro c member
      rw [List.mem_singleton.1 member]
      exact isOrdinary_two
    have ends : EndsRun ('>' :: after) := by
      rintro c ⟨rfl⟩
      rfl
    have run := scan_run (List.cons_ne_nil '2' []) ordinary ends
    simpa [spell] using run
  · rw [spell_operator operator, List.singleton_append, scan_operator operator]

end Token

/-! ## Layouts -/

/-- A token of a line, and the gap between it and what comes next. -/
structure Placed where
  token : Token
  gap : String
  deriving DecidableEq, Repr

/-- A line as tokens with gaps after them, behind a margin. -/
structure Layout where
  margin : String
  placed : List Placed
  deriving DecidableEq, Repr

namespace Layout

open Token

def tokens (layout : Layout) : List Token :=
  layout.placed.map Placed.token

/-- The line that the layout describes. -/
def line (layout : Layout) : String :=
  layout.margin ++ String.join (layout.placed.map fun placed => placed.token.spell ++ placed.gap)

/-- The words can stand in a line, the margin and the gaps are blank, and tokens that would run
together have a gap between them. -/
structure IsReadable (layout : Layout) : Prop where
  words : AreWellFormed layout.tokens
  margin : isBlankText layout.margin = true
  gaps : ∀ placed ∈ layout.placed, isBlankText placed.gap = true
  apart : layout.placed.IsChain fun placed next =>
    placed.token.needsGap next.token = true → placed.gap ≠ ""

/-- The characters of tokens with their gaps. -/
def characters (placed : List Placed) : List Char :=
  placed.flatMap fun one => one.token.spell.toList ++ one.gap.toList

private theorem toList_line (layout : Layout) :
    layout.line.toList = layout.margin.toList ++ characters layout.placed := by
  simp [line, characters, String.toList_join, List.flatMap_map, String.toList_append]

/-! ## A layout is read as its tokens -/

/-- What comes after a token and its gap may follow the token. -/
theorem mayFollow_gap {text : String} {gap : String} {rest : List Placed}
    (blank : isBlankText gap = true) (words : AreWellFormed (rest.map Placed.token))
    (apart : ∀ next, rest.head? = some next →
      (Token.word text).needsGap next.token = true → gap ≠ "") :
    MayFollow text (gap.toList ++ characters rest) := by
  cases gapCharacters : gap.toList with
  | cons c others =>
      have first : isBlank c = true := by simp_all [isBlankText]
      exact mayFollow_blank text first _
  | nil =>
      have noGap : gap = "" := String.toList_inj.1 gapCharacters
      cases rest with
      | nil => exact mayFollow_nil text
      | cons next others =>
          have touching : (Token.word text).needsGap next.token = false := by
            by_contra needed
            exact apart next rfl (by simpa using needed) noGap
          have nextWord : ∀ text, next.token = .word text → IsWord text :=
            fun text equal => words text (by simp [equal])
          simpa [characters] using (mayFollow_spell_iff nextWord text _).2 touching

private theorem scan_characters {placed : List Placed}
    (words : AreWellFormed (placed.map Placed.token))
    (gaps : ∀ one ∈ placed, isBlankText one.gap = true)
    (apart : placed.IsChain fun one next =>
      one.token.needsGap next.token = true → one.gap ≠ "") :
    scan (characters placed) = placed.map Placed.token := by
  induction placed with
  | nil => exact scan_nil
  | cons one rest inductionHypothesis =>
      obtain ⟨blank, laterGaps⟩ := List.forall_mem_cons.1 gaps
      have laterWords : AreWellFormed (rest.map Placed.token) :=
        fun text member => words text (List.mem_cons_of_mem _ member)
      have firstWord : ∀ text, one.token = .word text → IsWord text :=
        fun text equal => words text (by simp [equal])
      have follows : ∀ text, one.token = .word text →
          MayFollow text (one.gap.toList ++ characters rest) := by
        intro text equal
        refine mayFollow_gap blank laterWords fun next first needed => ?_
        rw [← equal] at needed
        exact apart.rel_head? first needed
      have gapCharacters : ∀ c ∈ one.gap.toList, isBlank c = true := List.all_eq_true.1 blank
      calc scan (characters (one :: rest))
          = scan (one.token.spell.toList ++ (one.gap.toList ++ characters rest)) := by
            rw [← List.append_assoc]
            rfl
        _ = one.token :: scan (one.gap.toList ++ characters rest) :=
            scan_spell_append firstWord follows
        _ = one.token :: scan (characters rest) := by rw [scan_blanks_append gapCharacters]
        _ = (one :: rest).map Placed.token := by
            rw [inductionHypothesis laterWords laterGaps apart.tail, List.map_cons]

private theorem ofText_line {layout : Layout} (readable : layout.IsReadable) :
    ofText layout.line = layout.tokens := by
  rw [ofText, toList_line, scan_blanks_append (List.all_eq_true.1 readable.margin),
    scan_characters readable.words readable.gaps readable.apart, tokens]

/-! ## Every line is a layout -/

/-- The layout with a token in front of it, directly before its margin. -/
def behind (layout : Layout) (token : Token) : Layout :=
  ⟨"", ⟨token, layout.margin⟩ :: layout.placed⟩

private theorem toList_line_behind (layout : Layout) (token : Token) :
    (layout.behind token).line.toList = token.spell.toList ++ layout.line.toList := by
  simp [toList_line, behind, characters]

private theorem behind_isReadable {layout : Layout} (readable : layout.IsReadable) {token : Token}
    (wellFormed : ∀ text, token = .word text → IsWord text)
    (follows : ∀ text, token = .word text → MayFollow text layout.line.toList) :
    (layout.behind token).IsReadable where
  words := by
    intro text member
    rcases List.mem_cons.1 member with equal | later
    · exact wellFormed text equal.symm
    · exact readable.words text later
  margin := rfl
  gaps := List.forall_mem_cons.2 ⟨readable.margin, readable.gaps⟩
  apart := by
    refine List.isChain_cons.2 ⟨fun next first needed noMargin => ?_, readable.apart⟩
    obtain ⟨others, placed⟩ := List.head?_eq_some_iff.1 first
    have nextWord : ∀ text, next.token = .word text → IsWord text :=
      fun text equal => readable.words text (by simp [tokens, placed, equal])
    obtain ⟨text, rfl⟩ : ∃ text, token = .word text := by
      cases token <;> first | exact ⟨_, rfl⟩ | cases needed
    have empty : layout.margin = "" := noMargin
    have touching := follows text rfl
    simp only [toList_line, empty, placed, characters, List.flatMap_cons, List.append_assoc,
      String.toList_empty, List.nil_append] at touching
    rw [(mayFollow_spell_iff nextWord text _).1 touching] at needed
    cases needed

/-- Reading a line finds a layout of it. -/
theorem exists_layout (characters : List Char) :
    ∃ layout : Layout, layout.IsReadable ∧ layout.tokens = scan characters ∧
      layout.line.toList = characters := by
  induction characters using line_cases with
  | nil => exact ⟨⟨"", []⟩, ⟨by simp [AreWellFormed, tokens], rfl, by simp, .nil⟩,
      scan_nil.symm, rfl⟩
  | blank c rest first inductionHypothesis =>
      obtain ⟨layout, readable, sameTokens, sameLine⟩ := inductionHypothesis
      refine ⟨{ layout with margin := String.singleton c ++ layout.margin },
        ⟨readable.words, ?_, readable.gaps, readable.apart⟩, ?_, ?_⟩
      · have margin := readable.margin
        simp_all [isBlankText]
      · rw [scan_blank first, ← sameTokens]
        rfl
      · rw [← sameLine]
        simp [toList_line]
  | operator c token rest first inductionHypothesis =>
      obtain ⟨layout, readable, sameTokens, sameLine⟩ := inductionHypothesis
      have wordless : ∀ text, token ≠ .word text := by
        rintro text rfl
        unfold operator? at first
        split at first <;> cases first
      refine ⟨layout.behind token, behind_isReadable readable
        (fun text equal => absurd equal (wordless text))
        (fun text equal => absurd equal (wordless text)), ?_, ?_⟩
      · rw [scan_operator first, ← sameTokens]
        rfl
      · rw [toList_line_behind, sameLine, spell_operator first, List.singleton_append]
  | run run after some_character ordinary ends afterHypothesis nextHypothesis =>
      rw [scan_run some_character ordinary ends]
      split
      case isTrue sign =>
        obtain ⟨rfl, first⟩ := sign
        obtain ⟨rest, rfl⟩ := List.head?_eq_some_iff.1 first
        obtain ⟨layout, readable, sameTokens, sameLine⟩ := nextHypothesis
        refine ⟨layout.behind .errorOutput, behind_isReadable readable
          (fun text equal => nomatch equal) (fun text equal => nomatch equal), ?_, ?_⟩
        · rw [← sameTokens]
          rfl
        · rw [toList_line_behind, sameLine]
          simp [spell]
      case isFalse noSign =>
        obtain ⟨layout, readable, sameTokens, sameLine⟩ := afterHypothesis
        have noErrorSign : String.ofList run = "2" → after.head? ≠ some '>' := by
          intro two sign
          exact noSign ⟨by simpa using congrArg String.toList two, sign⟩
        refine ⟨layout.behind (.word (String.ofList run)), behind_isReadable readable ?_ ?_, ?_, ?_⟩
        · rintro text ⟨rfl⟩
          exact isWord_ofList some_character ordinary
        · rintro text ⟨rfl⟩
          rw [sameLine]
          exact ⟨ends, noErrorSign⟩
        · rw [← sameTokens]
          rfl
        · rw [toList_line_behind, sameLine]
          simp [spell]

end Layout

/-! ## Blanks and jobs -/

open Token

theorem Step.ReadFrom.unique {part : List Token} {step other : Step}
    (isRead : step.ReadFrom part) (otherIsRead : other.ReadFrom part) : step = other := by
  have words := isRead.words.trans otherIsRead.words.symm
  have errorFile := isRead.errorFile.trans otherIsRead.errorFile.symm
  cases step
  cases other
  simp_all

namespace Job

/-- Tokens decide everything about the job they ask for but its text. -/
theorem ReadFrom.unique {tokens : List Token} {job other : Job} (isRead : job.ReadFrom tokens)
    (otherIsRead : other.ReadFrom tokens) : other = { job with input := other.input } := by
  have unique : Relator.RightUnique Step.ReadFrom :=
    fun _ _ _ first second => Step.ReadFrom.unique first second
  have steps := unique.forall₂ isRead.steps otherIsRead.steps
  have inputFile := isRead.inputFile.trans otherIsRead.inputFile.symm
  have outputFile := isRead.outputFile.trans otherIsRead.outputFile.symm
  have background := isRead.background.trans otherIsRead.background.symm
  have sameBackground : job.background = other.background := Bool.eq_iff_iff.2 background
  cases job
  cases other
  simp_all [Job.steps]

/-- What came of reading a line, told about another text. -/
def retold (input : String) : Except Stop (Option Job) → Except Stop (Option Job)
  | .ok job? => .ok (job?.map fun job => { job with input := input })
  | .error (.failure (.badLine _)) => .error (.failure (.badLine input))
  | .error stop => .error stop

private theorem parse_of_same_tokens {line other : String}
    (sameTokens : Token.ofText other = Token.ofText line) :
    parse other = retold (trim other) (parse line) := by
  by_cases some_token : Token.ofText line = []
  · rw [parse_of_no_token some_token, parse_of_no_token (sameTokens.trans some_token)]
    rfl
  by_cases asks : AsksForJob (Token.ofText line)
  · obtain ⟨job, read, -, isRead⟩ := parse_of_asksForJob asks
    obtain ⟨again, readAgain, input, isReadAgain⟩ := parse_of_asksForJob (sameTokens ▸ asks)
    rw [sameTokens] at isReadAgain
    rw [read, readAgain, isRead.unique isReadAgain, input]
    rfl
  · rw [parse_of_not_asksForJob some_token asks,
      parse_of_not_asksForJob (sameTokens ▸ some_token) (sameTokens ▸ asks)]
    rfl

end Job

/-- A line has some tokens exactly if it is a readable layout of them; hence two layouts of the
same tokens ask for the same job, up to its text, or are refused alike. -/
theorem ofText_eq_iff_exists_layout :
    (∀ (line : String) (tokens : List Token), Token.ofText line = tokens ↔
      ∃ layout : Layout, layout.IsReadable ∧ layout.tokens = tokens ∧ layout.line = line) ∧
    ∀ layout other : Layout, layout.IsReadable → other.IsReadable →
      layout.tokens = other.tokens →
        Job.parse other.line = Job.retold (trim other.line) (Job.parse layout.line) := by
  refine ⟨fun line tokens => ⟨?_, ?_⟩, fun layout other readable otherReadable same => ?_⟩
  · rintro rfl
    obtain ⟨layout, readable, sameTokens, sameLine⟩ := Layout.exists_layout line.toList
    exact ⟨layout, readable, sameTokens, String.toList_inj.1 sameLine⟩
  · rintro ⟨layout, readable, rfl, rfl⟩
    exact Layout.ofText_line readable
  · refine Job.parse_of_same_tokens ?_
    rw [Layout.ofText_line readable, Layout.ofText_line otherReadable, same]

end JobControl
