import JobControl.Proofs.Grammar
/-!
# Writing a job as a line

A job is written with one space between each two of its tokens.  Reading the line gives the job
back, as long as its words can stand in a line; and the words of a job that was read always can.
-/

namespace JobControl

open Text

/-! ## Trimming -/

/-- A line that neither starts nor ends with a blank. -/
def IsTrimmed (line : List Char) : Prop :=
  (∀ c, line.head? = some c → isBlank c = false) ∧
    ∀ c, line.getLast? = some c → isBlank c = false

theorem dropWhile_eq_self_of_head {line : List Char}
    (first : ∀ c, line.head? = some c → isBlank c = false) : line.dropWhile isBlank = line := by
  cases line with
  | nil => rfl
  | cons c rest => simp [first c rfl]

theorem trimBlanks_eq_self {line : List Char} (trimmed : IsTrimmed line) :
    trimBlanks line = line := by
  have last : ∀ c, line.reverse.head? = some c → isBlank c = false := by
    simpa only [List.head?_reverse] using trimmed.2
  rw [trimBlanks, dropWhile_eq_self_of_head trimmed.1, dropWhile_eq_self_of_head last,
    List.reverse_reverse]

private theorem head?_dropWhile_isBlank (line : List Char) :
    ∀ c, (line.dropWhile isBlank).head? = some c → isBlank c = false := by
  intro c first
  have stopped := List.head?_dropWhile_not isBlank line
  rw [first] at stopped
  simpa using stopped

theorem isTrimmed_trimBlanks (line : List Char) : IsTrimmed (trimBlanks line) := by
  have suffix := List.dropWhile_suffix isBlank (l := (line.dropWhile isBlank).reverse)
  obtain ⟨back, whole⟩ := List.reverse_prefix.2 suffix
  rw [List.reverse_reverse] at whole
  refine ⟨fun c first => ?_, fun c last => ?_⟩
  · refine head?_dropWhile_isBlank line c ?_
    rw [trimBlanks] at first
    rw [← whole, List.head?_append, first]
    rfl
  · rw [trimBlanks, List.getLast?_reverse] at last
    exact head?_dropWhile_isBlank _ c last

private theorem trim_trim (line : String) : trim (trim line) = trim line := by
  rw [trim, toList_trim, trimBlanks_eq_self (isTrimmed_trimBlanks line.toList), trim]

namespace Token

/-! ## Tokens with spaces between them -/

/-- The text of a token. -/
def spell : Token → String
  | .word text => text
  | .pipe => "|"
  | .input => "<"
  | .output => ">"
  | .errorOutput => "2>"
  | .background => "&"

/-- A line of tokens with one space between each two. -/
def spaced (tokens : List Token) : List Char :=
  [' '].intercalate (tokens.map fun token => token.spell.toList)

/-- The words among the tokens can stand in a line. -/
def AreWellFormed (tokens : List Token) : Prop :=
  ∀ text, .word text ∈ tokens → IsWord text

private theorem spaced_append {front back : List Token} (some_front : front ≠ [])
    (some_back : back ≠ []) :
    spaced (front ++ back) = spaced front ++ ' ' :: spaced back := by
  induction front with
  | nil => exact absurd rfl some_front
  | cons token rest inductionHypothesis =>
      cases rest with
      | nil =>
          cases back with
          | nil => exact absurd rfl some_back
          | cons next others => simp [spaced]
      | cons next others =>
          have later := inductionHypothesis (List.cons_ne_nil _ _)
          simp only [spaced, List.cons_append, List.map_cons, List.intercalate_cons_cons,
            List.append_assoc] at later ⊢
          rw [later]

private theorem scan_sign {c : Char} {token : Token} (operator : operator? c = some token) :
    scan [c] = [token] := by
  rw [scan_operator operator, scan_nil]

private theorem scan_spell {token : Token} (wellFormed : ∀ text, token = .word text → IsWord text) :
    scan token.spell.toList = [token] := by
  cases token with
  | word text =>
      obtain ⟨some_character, ordinary⟩ := wellFormed text rfl
      have some_run : text.toList ≠ [] := by simpa using some_character
      have run := scan_run some_run (fun c member => (isOrdinary_iff c).2 (ordinary c member))
        endsRun_nil
      simpa [spell] using run
  | pipe => exact scan_sign (c := '|') rfl
  | input => exact scan_sign (c := '<') rfl
  | output => exact scan_sign (c := '>') rfl
  | background => exact scan_sign (c := '&') rfl
  | errorOutput =>
      have ends : EndsRun ['>'] := by
        rintro c ⟨rfl⟩
        rfl
      have ordinary : ∀ c ∈ ['2'], isOrdinary c = true := by
        intro c member
        rw [List.mem_singleton.1 member]
        rfl
      have run := scan_run (List.cons_ne_nil '2' []) ordinary ends
      simpa [spell] using run

private theorem scan_spaced {tokens : List Token} (wellFormed : AreWellFormed tokens) :
    scan (spaced tokens) = tokens := by
  induction tokens with
  | nil => exact scan_nil
  | cons token rest inductionHypothesis =>
      have first : scan token.spell.toList = [token] :=
        scan_spell fun text same => wellFormed text (same ▸ List.mem_cons_self)
      have later := inductionHypothesis fun text member =>
        wellFormed text (List.mem_cons_of_mem token member)
      cases rest with
      | nil => simpa [spaced] using first
      | cons next others =>
          have split := spaced_append (List.cons_ne_nil token []) (List.cons_ne_nil next others)
          rw [List.singleton_append] at split
          have alone : spaced [token] = token.spell.toList := by simp [spaced]
          rw [split, scan_append_blank rfl, later, alone, first, List.singleton_append]

private theorem isBlank_of_mem_spell {token : Token}
    (wellFormed : ∀ text, token = .word text → IsWord text) :
    token.spell.toList ≠ [] ∧ ∀ c ∈ token.spell.toList, isBlank c = false := by
  cases token with
  | word text =>
      obtain ⟨some_character, ordinary⟩ := wellFormed text rfl
      exact ⟨by simpa [spell] using some_character, fun c member => (ordinary c member).1⟩
  | pipe | input | output | background =>
      refine ⟨List.cons_ne_nil _ _, fun c member => ?_⟩
      rw [List.mem_singleton.1 member]
      rfl
  | errorOutput =>
      refine ⟨List.cons_ne_nil _ _, fun c member => ?_⟩
      rcases List.mem_cons.1 member with rfl | last
      · rfl
      · rw [List.mem_singleton.1 last]
        rfl

private theorem head?_spaced (token : Token) (rest : List Token)
    (wellFormed : ∀ text, token = .word text → IsWord text) :
    (spaced (token :: rest)).head? = token.spell.toList.head? := by
  obtain ⟨some_character, -⟩ := isBlank_of_mem_spell wellFormed
  obtain ⟨c, others, spelled⟩ := List.exists_cons_of_ne_nil some_character
  cases rest <;> simp [spaced, spelled]

private theorem getLast?_spaced (front : List Token) (token : Token)
    (wellFormed : ∀ text, token = .word text → IsWord text) :
    (spaced (front ++ [token])).getLast? = token.spell.toList.getLast? := by
  obtain ⟨some_character, -⟩ := isBlank_of_mem_spell wellFormed
  have alone : spaced [token] = token.spell.toList := by simp [spaced]
  cases front with
  | nil => rw [List.nil_append, alone]
  | cons first others =>
      rw [spaced_append (List.cons_ne_nil _ _) (List.cons_ne_nil _ _), alone,
        List.getLast?_append, List.getLast?_cons, List.getLast?_eq_some_getLast some_character]
      rfl

private theorem isTrimmed_spaced {tokens : List Token} (wellFormed : AreWellFormed tokens) :
    IsTrimmed (spaced tokens) := by
  have unblank (token : Token) (member : token ∈ tokens) :=
    isBlank_of_mem_spell fun text same => wellFormed text (same ▸ member)
  refine ⟨fun c first => ?_, fun c last => ?_⟩
  · cases tokens with
    | nil => cases first
    | cons token rest =>
        rw [head?_spaced token rest fun text same => wellFormed text (same ▸ List.mem_cons_self)]
          at first
        exact (unblank token List.mem_cons_self).2 c (List.mem_of_head? first)
  · rcases List.eq_nil_or_concat' tokens with rfl | ⟨front, token, rfl⟩
    · cases last
    · have member : token ∈ front ++ [token] := by simp
      rw [getLast?_spaced front token fun text same => wellFormed text (same ▸ member)] at last
      exact (unblank token member).2 c (List.mem_of_getLast? last)

/-- The tokens that name a file, if there is one. -/
def fileTokens (sign : Token) : Option String → List Token
  | none => []
  | some file => [sign, .word file]

end Token

open Token

/-! ## Steps and jobs as text -/

/-- A step as text: the program and its arguments, then the file for its errors. -/
def Step.render (step : Step) : String :=
  step.commandLine ++ step.errorFile.elim "" (" 2> " ++ ·)

/-- A job as text: its steps with bars between them, then its files, then `&`. -/
def Job.render (job : Job) : String :=
  " | ".intercalate (job.steps.map Step.render) ++ job.inputFile.elim "" (" < " ++ ·) ++
    job.outputFile.elim "" (" > " ++ ·) ++ if job.background then " &" else ""

/-- All words of the step can stand in a line. -/
structure Step.IsWellFormed (step : Step) : Prop where
  program : IsWord step.program
  arguments : ∀ argument ∈ step.arguments, IsWord argument
  errorFile : ∀ file, step.errorFile = some file → IsWord file

/-- All words of the job can stand in a line. -/
structure Job.IsWellFormed (job : Job) : Prop where
  steps : ∀ step ∈ job.steps, step.IsWellFormed
  inputFile : ∀ file, job.inputFile = some file → IsWord file
  outputFile : ∀ file, job.outputFile = some file → IsWord file

/-- The tokens that a step is written with. -/
def Step.tokens (step : Step) : List Token :=
  (step.program :: step.arguments).map .word ++ fileTokens .errorOutput step.errorFile

/-- What a job is written with after its steps. -/
def Job.closing (job : Job) : List Token :=
  fileTokens .input job.inputFile ++ fileTokens .output job.outputFile ++
    if job.background then [.background] else []

/-- The tokens that a job is written with. -/
def Job.tokens (job : Job) : List Token :=
  [.pipe].intercalate (job.steps.map Step.tokens) ++ job.closing

private theorem Step.tokens_ne_nil (step : Step) : step.tokens ≠ [] :=
  List.cons_ne_nil _ _

/-- More tokens can be written at the end of a line. -/
theorem spaced_append_toList {tokens more : List Token} {line text : String}
    (some_token : tokens ≠ []) (isLine : line.toList = spaced tokens)
    (isText : text.toList = if more = [] then [] else ' ' :: spaced more) :
    (line ++ text).toList = spaced (tokens ++ more) := by
  rw [String.toList_append, isLine, isText]
  split
  case isTrue none => rw [none, List.append_nil, List.append_nil]
  case isFalse some_more => exact (spaced_append some_token some_more).symm

private theorem Step.commandLine_toList (step : Step) :
    step.commandLine.toList = spaced ((step.program :: step.arguments).map .word) := by
  have extend (arguments : List String) (line : String) (tokens : List Token)
      (some_token : tokens ≠ []) (isLine : line.toList = spaced tokens) :
      (arguments.foldl (fun line argument => line ++ " " ++ argument) line).toList =
        spaced (tokens ++ arguments.map .word) := by
    induction arguments generalizing line tokens with
    | nil => simpa using isLine
    | cons argument rest inductionHypothesis =>
        have longer : (line ++ " " ++ argument).toList = spaced (tokens ++ [.word argument]) := by
          rw [String.append_assoc]
          exact spaced_append_toList some_token isLine (by simp [spaced, spell])
        rw [List.foldl_cons, inductionHypothesis _ _ (by simp) longer]
        simp
  have alone : step.program.toList = spaced [.word step.program] := by simp [spaced, spell]
  exact extend step.arguments step.program _ (List.cons_ne_nil _ _) alone

private theorem fileTokens_toList (sign : Token) (file : Option String) (start : String)
    (spelled : start.toList = ' ' :: sign.spell.toList ++ [' ']) :
    (file.elim "" (start ++ ·)).toList =
      if fileTokens sign file = [] then [] else ' ' :: spaced (fileTokens sign file) := by
  cases file with
  | none => rfl
  | some name => simp [fileTokens, spaced, spelled, spell]

private theorem Step.render_toList (step : Step) : step.render.toList = spaced step.tokens :=
  spaced_append_toList (List.cons_ne_nil _ _) step.commandLine_toList
    (fileTokens_toList .errorOutput step.errorFile " 2> " rfl)

private theorem intercalate_tokens_ne_nil (step : Step) (rest : List Step) :
    [.pipe].intercalate ((step :: rest).map Step.tokens) ≠ [] := by
  cases rest <;> simp [step.tokens_ne_nil]

private theorem steps_toList {steps : List Step} (some_step : steps ≠ []) :
    (" | ".intercalate (steps.map Step.render)).toList =
      spaced ([.pipe].intercalate (steps.map Step.tokens)) := by
  induction steps with
  | nil => exact absurd rfl some_step
  | cons step rest inductionHypothesis =>
      cases rest with
      | nil => simpa using step.render_toList
      | cons next others =>
          have later := inductionHypothesis (List.cons_ne_nil _ _)
          have some_later := intercalate_tokens_ne_nil next others
          have bar : spaced [.pipe] = ['|'] := by simp [spaced, spell]
          simp only [List.map_cons] at later some_later
          simp only [List.map_cons, String.intercalate_cons_cons, String.toList_append, later,
            step.render_toList, List.intercalate_cons_cons, List.append_assoc]
          rw [spaced_append step.tokens_ne_nil (by simp),
            spaced_append (List.cons_ne_nil _ _) some_later, bar]
          rfl

private theorem Job.render_toList (job : Job) : job.render.toList = spaced job.tokens := by
  have some_token := intercalate_tokens_ne_nil job.first job.rest
  have steps := steps_toList job.steps_ne_nil
  have withInput := spaced_append_toList some_token steps
    (fileTokens_toList .input job.inputFile " < " rfl)
  have withOutput := spaced_append_toList (List.append_ne_nil_of_left_ne_nil some_token _) withInput
    (fileTokens_toList .output job.outputFile " > " rfl)
  have background : (if job.background then " &" else "").toList =
      if (if job.background then [Token.background] else []) = [] then []
      else ' ' :: spaced (if job.background then [Token.background] else []) := by
    cases job.background <;> simp [spaced, spell]
  have whole := spaced_append_toList
    (List.append_ne_nil_of_left_ne_nil (List.append_ne_nil_of_left_ne_nil some_token _) _)
    withOutput background
  rw [Job.render, whole, Job.tokens, Job.closing]
  simp only [List.append_assoc]
  rfl

/-! ## Reading a written job -/

private theorem areWellFormed_append {front back : List Token} (frontWords : AreWellFormed front)
    (backWords : AreWellFormed back) : AreWellFormed (front ++ back) := by
  intro text member
  rcases List.mem_append.1 member with inFront | inBack
  · exact frontWords text inFront
  · exact backWords text inBack

private theorem areWellFormed_words {texts : List String} (words : ∀ text ∈ texts, IsWord text) :
    AreWellFormed (texts.map .word) := by
  intro text member
  obtain ⟨other, inside, equal⟩ := List.mem_map.1 member
  cases equal
  exact words text inside

private theorem areWellFormed_wordless {tokens : List Token}
    (wordless : ∀ text, .word text ∉ tokens) :
    AreWellFormed tokens :=
  fun text member => absurd member (wordless text)

private theorem areWellFormed_fileTokens {sign : Token} {file : Option String}
    (naming : sign.namesFile = true) (words : ∀ name, file = some name → IsWord name) :
    AreWellFormed (fileTokens sign file) := by
  intro text member
  cases file with
  | none => cases member
  | some name =>
      rcases List.mem_cons.1 member with rfl | named
      · cases naming
      · cases List.mem_singleton.1 named
        exact words text rfl

private theorem areWellFormed_intercalate {parts : List (List Token)}
    (words : ∀ part ∈ parts, AreWellFormed part) : AreWellFormed ([.pipe].intercalate parts) := by
  induction parts with
  | nil => exact areWellFormed_wordless (by simp)
  | cons part rest inductionHypothesis =>
      obtain ⟨first, later⟩ := List.forall_mem_cons.1 words
      cases rest with
      | nil => simpa using first
      | cons next others =>
          rw [List.intercalate_cons_cons]
          exact areWellFormed_append (areWellFormed_append first
            (areWellFormed_wordless (by simp))) (inductionHypothesis later)

theorem Step.IsWellFormed.tokens {step : Step} (wellFormed : step.IsWellFormed) :
    AreWellFormed step.tokens :=
  areWellFormed_append
    (areWellFormed_words (List.forall_mem_cons.2 ⟨wellFormed.program, wellFormed.arguments⟩))
    (areWellFormed_fileTokens rfl wellFormed.errorFile)

theorem Job.IsWellFormed.tokens {job : Job} (wellFormed : job.IsWellFormed) :
    AreWellFormed job.tokens := by
  refine areWellFormed_append (areWellFormed_intercalate ?_) (areWellFormed_append
    (areWellFormed_append (areWellFormed_fileTokens rfl wellFormed.inputFile)
      (areWellFormed_fileTokens rfl wellFormed.outputFile)) (areWellFormed_wordless ?_))
  · intro part member
    obtain ⟨step, inside, rfl⟩ := List.mem_map.1 member
    exact (wellFormed.steps step inside).tokens
  · intro text
    cases job.background <;> simp

namespace Job

private theorem ofText_render {job : Job} (wellFormed : job.IsWellFormed) :
    ofText job.render = job.tokens := by
  rw [ofText, job.render_toList, scan_spaced wellFormed.tokens]

private theorem trim_render {job : Job} (wellFormed : job.IsWellFormed) :
    trim job.render = job.render := by
  rw [trim, job.render_toList, trimBlanks_eq_self (isTrimmed_spaced wellFormed.tokens),
    ← job.render_toList, String.ofList_toList]

namespace Reading

private theorem take?_words (texts : List String) (reading : Reading) (rest : List Token) :
    reading.take? (texts.map .word ++ rest) =
      ({ reading with words := reading.words ++ texts } : Reading).take? rest := by
  induction texts generalizing reading with
  | nil => simp
  | cons text others inductionHypothesis =>
      rw [List.map_cons, List.cons_append, take?_word, inductionHypothesis]
      simp

private theorem take?_step (step : Step) (draft : JobDraft) (rest : List Token) :
    ({ draft := draft } : Reading).take? (step.tokens ++ rest) =
      ({ draft := draft, words := step.program :: step.arguments,
         errorFile := step.errorFile } : Reading).take? rest := by
  rw [Step.tokens, List.append_assoc, take?_words]
  cases step.errorFile with
  | none => rfl
  | some file => rfl

private theorem take?_closing (job : Job) (step : Step) (draft : JobDraft) :
    ({ draft := draft, words := step.program :: step.arguments,
       errorFile := step.errorFile } : Reading).take? job.closing =
      some { draft :=
        { draft with
          steps := draft.steps ++ [step]
          inputFile := job.inputFile.or draft.inputFile
          outputFile := job.outputFile.or draft.outputFile
          background := draft.background || job.background } } := by
  unfold closing
  cases job.inputFile <;> cases job.outputFile <;> cases job.background <;>
    simp [fileTokens, take?, finishStep?]

private theorem take?_steps (job : Job) (first : Step) (rest : List Step) (draft : JobDraft) :
    ({ draft := draft } : Reading).take?
        ([.pipe].intercalate ((first :: rest).map Step.tokens) ++ job.closing) =
      some { draft :=
        { draft with
          steps := draft.steps ++ first :: rest
          inputFile := job.inputFile.or draft.inputFile
          outputFile := job.outputFile.or draft.outputFile
          background := draft.background || job.background } } := by
  induction rest generalizing first draft with
  | nil =>
      rw [List.map_cons, List.map_nil, List.intercalate_singleton, take?_step, take?_closing]
  | cons next others inductionHypothesis =>
      have later := inductionHypothesis next { draft with steps := draft.steps ++ [first] }
      rw [List.map_cons] at later
      rw [List.map_cons, List.map_cons, List.intercalate_cons_cons, List.append_assoc,
        List.append_assoc, take?_step, List.singleton_append, take?_pipe, finishStep?,
        Option.bind_some, later]
      simp

end Reading

private theorem parse_render {job : Job} (wellFormed : job.IsWellFormed) :
    parse job.render = .ok (some { job with input := job.render }) := by
  have tokens := ofText_render wellFormed
  have some_token : ofText job.render ≠ [] := by
    rw [tokens]
    exact List.append_ne_nil_of_left_ne_nil (intercalate_tokens_ne_nil job.first job.rest) _
  have taken := Reading.take?_steps job job.first job.rest { input := job.render }
  rw [parse_of_token some_token, trim_render wellFormed, tokens, Job.tokens, Job.steps, taken]
  simp [JobDraft.complete]

end Job

/-! ## The words of a job that was read -/

private theorem mem_of_mem_paired {before earlier : Option Token} {tokens : List Token}
    {token : Token} (member : (earlier, token) ∈ paired before tokens) : token ∈ tokens := by
  induction tokens generalizing before with
  | nil => cases member
  | cons first rest inductionHypothesis =>
      rcases List.mem_cons.1 member with equal | later
      · cases equal
        exact List.mem_cons_self
      · exact List.mem_cons_of_mem first (inductionHypothesis later)

private theorem eq_word_of_word? {token : Token} {text : String} (word : token.word? = some text) :
    token = .word text := by
  cases token <;> cases word
  rfl

private theorem mem_of_mem_commandWords {tokens : List Token} {text : String}
    (member : text ∈ commandWords tokens) : .word text ∈ tokens := by
  obtain ⟨⟨before, token⟩, inside, found⟩ := List.mem_filterMap.1 member
  unfold commandWord? at found
  split at found
  · cases found
  · rw [← eq_word_of_word? found]
    exact mem_of_mem_paired inside

private theorem mem_of_mem_filesAfter {sign : Token} {tokens : List Token} {file : String}
    (member : file ∈ filesAfter sign tokens) : .word file ∈ tokens := by
  obtain ⟨⟨before, token⟩, inside, found⟩ := List.mem_filterMap.1 member
  unfold fileAfter? at found
  split at found
  · rw [← eq_word_of_word? found]
    exact mem_of_mem_paired inside
  · cases found

private theorem mem_of_mem_segments {tokens part : List Token} (member : part ∈ segments tokens)
    {token : Token} (inside : token ∈ part) : token ∈ tokens := by
  obtain ⟨ending, -, whole, -⟩ := lineBody_append tokens
  rw [whole]
  exact List.mem_append_left ending (mem_lineBody member inside)

private theorem Step.ReadFrom.isWellFormed {part : List Token} {step : Step}
    (isRead : step.ReadFrom part) (wellFormed : AreWellFormed part) : step.IsWellFormed := by
  have words : ∀ text ∈ step.program :: step.arguments, IsWord text := by
    rw [isRead.words]
    exact fun text member => wellFormed text (mem_of_mem_commandWords member)
  obtain ⟨program, arguments⟩ := List.forall_mem_cons.1 words
  refine ⟨program, arguments, fun file named => ?_⟩
  rw [isRead.errorFile] at named
  exact wellFormed file (mem_of_mem_filesAfter (List.mem_of_getLast? named))

private theorem exists_part_of_mem {parts : List (List Token)} {steps : List Step}
    (areRead : List.Forall₂ Step.ReadFrom parts steps) {step : Step} (member : step ∈ steps) :
    ∃ part ∈ parts, step.ReadFrom part := by
  induction areRead with
  | nil => cases member
  | cons isRead _ inductionHypothesis =>
      rcases List.mem_cons.1 member with rfl | later
      · exact ⟨_, List.mem_cons_self, isRead⟩
      · obtain ⟨part, inside, partIsRead⟩ := inductionHypothesis later
        exact ⟨part, List.mem_cons_of_mem _ inside, partIsRead⟩

private theorem Job.ReadFrom.isWellFormed {tokens : List Token} {job : Job}
    (isRead : job.ReadFrom tokens) (wellFormed : AreWellFormed tokens) : job.IsWellFormed := by
  refine ⟨fun step member => ?_, fun file named => ?_, fun file named => ?_⟩
  · obtain ⟨part, inside, stepIsRead⟩ := exists_part_of_mem isRead.steps member
    exact stepIsRead.isWellFormed
      fun text among => wellFormed text (mem_of_mem_segments inside among)
  · rw [isRead.inputFile] at named
    exact wellFormed file (mem_of_mem_filesAfter (List.mem_of_getLast? named))
  · rw [isRead.outputFile] at named
    exact wellFormed file (mem_of_mem_filesAfter (List.mem_of_getLast? named))

namespace Job

private theorem parse_trim (line : String) : parse (trim line) = parse line := by
  unfold parse
  rw [trim_trim]

/-- A job whose words can stand in a line is read back from its text; every job that is read is
one of these, and its trimmed line asks for the same job again. -/
theorem parse_inverts_render :
    (∀ job : Job, job.IsWellFormed →
      parse job.render = .ok (some { job with input := job.render })) ∧
    ∀ (line : String) (job : Job), parse line = .ok (some job) →
      job.IsWellFormed ∧
        parse job.render = .ok (some { job with input := job.render }) ∧
        parse job.input = .ok (some job) := by
  refine ⟨fun job wellFormed => parse_render wellFormed, fun line job read => ?_⟩
  obtain ⟨input, isRead⟩ := isReadFrom_of_parse read
  have wellFormed := isRead.isWellFormed fun text member => isWord_of_mem_ofText member
  refine ⟨wellFormed, parse_render wellFormed, ?_⟩
  rw [input, parse_trim, read]

end Job

end JobControl
