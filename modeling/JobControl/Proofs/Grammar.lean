import Mathlib.Data.List.Forall2
import JobControl.Job.Parse
import JobControl.Proofs.Grammar.Tokens
/-!
# The grammar of a line

A line asks for a job when its tokens, without one `&` at their end, are commands with `|` between
each two: no further `&`, a file after every redirection sign, and in every command a word that is
no file.  The reader takes the tokens from left to right and keeps a step at hand; here it is
compared with the grammar, which looks at one segment between bars at a time.
-/

namespace JobControl

namespace Token

/-! ## Segments, words and files -/

/-- Whether the token is a redirection sign. -/
def namesFile : Token → Bool
  | .input | .output | .errorOutput => true
  | _ => false

def word? : Token → Option String
  | .word text => some text
  | _ => none

/-- Each token with the one that stands before it. -/
def paired (before : Option Token) : List Token → List (Option Token × Token)
  | [] => []
  | token :: rest => (before, token) :: paired (some token) rest

/-- The word of a pair that does not stand after a redirection sign. -/
def commandWord? (pair : Option Token × Token) : Option String :=
  if pair.1.any namesFile then none else pair.2.word?

/-- The word of a pair that stands after the sign. -/
def fileAfter? (sign : Token) (pair : Option Token × Token) : Option String :=
  if pair.1 = some sign then pair.2.word? else none

/-- The words that are not the file of a redirection, in order. -/
def commandWords (tokens : List Token) : List String :=
  (paired none tokens).filterMap commandWord?

/-- The words directly after a sign, in order. -/
def filesAfter (sign : Token) (tokens : List Token) : List String :=
  (paired none tokens).filterMap (fileAfter? sign)

/-- Every redirection sign stands directly before a word. -/
def SignsNameFiles (tokens : List Token) : Prop :=
  ∀ place sign, tokens[place]? = some sign → sign.namesFile = true →
    ∃ file, tokens[place + 1]? = some (.word file)

/-- The tokens of a line without one `&` at their end. -/
def lineBody (tokens : List Token) : List Token :=
  if tokens.getLast? = some .background then tokens.dropLast else tokens

/-- What stands between the bars of a line. -/
def segments (tokens : List Token) : List (List Token) :=
  (lineBody tokens).splitOn .pipe

/-- The tokens of a line that asks for a job. -/
structure AsksForJob (tokens : List Token) : Prop where
  ends : .background ∉ lineBody tokens
  files : ∀ segment ∈ segments tokens, SignsNameFiles segment
  words : ∀ segment ∈ segments tokens, commandWords segment ≠ []

/-! ## Token by token -/

private theorem commandWords_of_before {before : Option Token}
    (unsigned : before.any namesFile = false) (tokens : List Token) :
    (paired before tokens).filterMap commandWord? = commandWords tokens := by
  cases tokens with
  | nil => rfl
  | cons token rest => simp [commandWords, paired, commandWord?, List.filterMap_cons, unsigned]

private theorem filesAfter_of_before {before : Option Token} {sign : Token}
    (differs : before ≠ some sign) (tokens : List Token) :
    (paired before tokens).filterMap (fileAfter? sign) = filesAfter sign tokens := by
  cases tokens with
  | nil => rfl
  | cons token rest => simp [filesAfter, paired, fileAfter?, differs]

@[simp]
theorem commandWords_word (text : String) (rest : List Token) :
    commandWords (.word text :: rest) = text :: commandWords rest := by
  have unsigned : (some (word text)).any namesFile = false := rfl
  rw [← commandWords_of_before unsigned rest]
  rfl

private theorem filesAfter_word (sign : Token) (naming : sign.namesFile = true) (text : String)
    (rest : List Token) : filesAfter sign (.word text :: rest) = filesAfter sign rest := by
  have differs : some (.word text) ≠ some sign := by
    rintro ⟨rfl⟩
    cases naming
  exact filesAfter_of_before differs rest

private theorem commandWords_file {sign : Token} (naming : sign.namesFile = true) (file : String)
    (rest : List Token) : commandWords (sign :: .word file :: rest) = commandWords rest := by
  have unsigned : (some (word file)).any namesFile = false := rfl
  rw [← commandWords_of_before unsigned rest]
  cases sign <;> first | rfl | cases naming

private theorem filesAfter_file (sign other : Token) (naming : sign.namesFile = true)
    (file : String) (rest : List Token) :
    filesAfter sign (other :: .word file :: rest) =
      if other = sign then file :: filesAfter sign rest else filesAfter sign rest := by
  by_cases same : other = sign
  · subst same
    rw [if_pos rfl]
    have differs : some (.word file) ≠ some other := by
      rintro ⟨rfl⟩
      cases naming
    rw [← filesAfter_of_before differs rest]
    simp [filesAfter, paired, fileAfter?, word?]
  · rw [if_neg same, ← filesAfter_word sign naming file rest]
    have differs : some other ≠ some sign := by simpa using same
    exact filesAfter_of_before differs _

/-- No file is named across a token that is neither a sign nor a word. -/
theorem filesAfter_append (sign separator : Token) (naming : sign.namesFile = true)
    (unsigned : separator.namesFile = false) (wordless : separator.word? = none)
    (front back : List Token) :
    filesAfter sign (front ++ separator :: back) =
      filesAfter sign front ++ filesAfter sign back := by
  have differs : some separator ≠ some sign := by
    rintro ⟨rfl⟩
    rw [naming] at unsigned
    cases unsigned
  have split : ∀ before, (paired before (front ++ separator :: back)).filterMap (fileAfter? sign) =
      (paired before front).filterMap (fileAfter? sign) ++ filesAfter sign back := by
    induction front with
    | nil =>
        intro before
        simp [paired, fileAfter?, wordless, ← filesAfter_of_before differs back]
    | cons token rest inductionHypothesis =>
        intro before
        rw [List.cons_append, paired, paired, List.filterMap_cons, List.filterMap_cons,
          inductionHypothesis]
        cases fileAfter? sign (before, token) <;> rfl
  exact split none

private theorem signsNameFiles_cons_iff (token : Token) (rest : List Token) :
    SignsNameFiles (token :: rest) ↔
      (token.namesFile = true → ∃ file, rest.head? = some (.word file)) ∧ SignsNameFiles rest := by
  constructor
  · intro named
    refine ⟨fun naming => ?_, fun place sign => ?_⟩
    · simpa [List.head?_eq_getElem?] using named 0 token rfl naming
    · simpa using named (place + 1) sign
  · rintro ⟨first, later⟩ place sign stands naming
    cases place with
    | zero =>
        obtain rfl : token = sign := by simpa using stands
        simpa [List.head?_eq_getElem?] using first naming
    | succ place => simpa using later place sign (by simpa using stands) naming

private theorem signsNameFiles_nil : SignsNameFiles [] := by
  intro place sign stands
  simp at stands

/-- Token lists, the way the reader looks at them: a sign is taken together with its file. -/
theorem reading_cases {motive : List Token → Prop} (nil : motive [])
    (word : ∀ text rest, motive rest → motive (.word text :: rest))
    (pipe : ∀ rest, motive rest → motive (.pipe :: rest))
    (background : ∀ rest, motive rest → motive (.background :: rest))
    (file : ∀ sign file rest, sign.namesFile = true → motive rest →
      motive (sign :: .word file :: rest))
    (astray : ∀ sign rest, sign.namesFile = true → (∀ file, rest.head? ≠ some (.word file)) →
      motive (sign :: rest))
    (tokens : List Token) : motive tokens := by
  induction size : tokens.length using Nat.strongRecOn generalizing tokens with
  | ind length inductionHypothesis =>
      subst size
      cases tokens with
      | nil => exact nil
      | cons token rest =>
          have later : motive rest := inductionHypothesis _ (Nat.lt_succ_self _) rest rfl
          have signed (naming : token.namesFile = true) : motive (token :: rest) := by
            by_cases named : ∃ name, rest.head? = some (.word name)
            · obtain ⟨name, first⟩ := named
              obtain ⟨others, rfl⟩ := List.head?_eq_some_iff.1 first
              exact file token name others naming
                (inductionHypothesis _ (by simp only [List.length_cons]; omega) others rfl)
            · exact astray token rest naming fun name first => named ⟨name, first⟩
          cases token with
          | word text => exact word text rest later
          | pipe => exact pipe rest later
          | background => exact background rest later
          | input | output | errorOutput => exact signed rfl

/-- Segments, the way the reader looks at them. -/
inductive IsSegment : List Token → Prop
  | nil : IsSegment []
  | word (text : String) {rest : List Token} : IsSegment rest → IsSegment (.word text :: rest)
  | file {sign : Token} (file : String) {rest : List Token} : sign.namesFile = true →
      IsSegment rest → IsSegment (sign :: .word file :: rest)
  | astray {sign : Token} {rest : List Token} : sign.namesFile = true →
      (∀ file, rest.head? ≠ some (.word file)) → IsSegment (sign :: rest)

private theorem isSegment_of_not_mem {tokens : List Token} (barless : .pipe ∉ tokens)
    (endless : .background ∉ tokens) : IsSegment tokens := by
  induction tokens using reading_cases with
  | nil => exact .nil
  | word text rest inductionHypothesis =>
      simp only [List.mem_cons, not_or] at barless endless
      exact .word text (inductionHypothesis barless.2 endless.2)
  | pipe rest => exact absurd List.mem_cons_self barless
  | background rest => exact absurd List.mem_cons_self endless
  | file sign name rest naming inductionHypothesis =>
      simp only [List.mem_cons, not_or] at barless endless
      exact .file name naming (inductionHypothesis barless.2.2 endless.2.2)
  | astray sign rest naming wordless => exact .astray naming wordless

private theorem signsNameFiles_word_iff (text : String) (rest : List Token) :
    SignsNameFiles (.word text :: rest) ↔ SignsNameFiles rest := by
  simp [signsNameFiles_cons_iff, namesFile]

private theorem signsNameFiles_file_iff {sign : Token} (file : String) (rest : List Token) :
    SignsNameFiles (sign :: .word file :: rest) ↔ SignsNameFiles rest := by
  rw [signsNameFiles_cons_iff, signsNameFiles_word_iff]
  simp

end Token

open Token

/-! ## What a step and a job are read from -/

/-- The step that a segment asks for. -/
structure Step.ReadFrom (segment : List Token) (step : Step) : Prop where
  words : step.program :: step.arguments = commandWords segment
  errorFile : step.errorFile = (filesAfter .errorOutput segment).getLast?

/-- The job that the tokens of a line ask for. -/
structure Job.ReadFrom (tokens : List Token) (job : Job) : Prop where
  steps : List.Forall₂ Step.ReadFrom (segments tokens) job.steps
  inputFile : job.inputFile = (filesAfter .input tokens).getLast?
  outputFile : job.outputFile = (filesAfter .output tokens).getLast?
  background : job.background = true ↔ tokens.getLast? = some .background

/-- The draft with the last files that the tokens name for the job. -/
def JobDraft.naming (draft : JobDraft) (tokens : List Token) : JobDraft :=
  { draft with
    inputFile := (filesAfter .input tokens).getLast?.or draft.inputFile
    outputFile := (filesAfter .output tokens).getLast?.or draft.outputFile }

/-- The draft with steps that were read from the tokens. -/
def JobDraft.withSteps (draft : JobDraft) (steps : List Step) (tokens : List Token) : JobDraft :=
  { draft.naming tokens with steps := draft.steps ++ steps }

/-- The draft at the end of a line, where `&` may stand. -/
def JobDraft.endedBy (draft : JobDraft) (ending : List Token) : JobDraft :=
  { draft with background := draft.background || !ending.isEmpty }

private theorem JobDraft.withSteps_withSteps (draft : JobDraft) (steps others : List Step)
    (front back : List Token) :
    (draft.withSteps steps front).withSteps others back =
      draft.withSteps (steps ++ others) (front ++ .pipe :: back) := by
  simp [withSteps, naming, filesAfter_append .input .pipe rfl rfl rfl,
    filesAfter_append .output .pipe rfl rfl rfl, List.getLast?_append, Option.or_assoc]

namespace Job.Reading

/-! ## Reading a token -/

theorem take?_nil (reading : Reading) : reading.take? [] = reading.finishStep? :=
  rfl

theorem take?_word (reading : Reading) (text : String) (rest : List Token) :
    reading.take? (.word text :: rest) =
      ({ reading with words := reading.words ++ [text] } : Reading).take? rest :=
  rfl

theorem take?_pipe (reading : Reading) (rest : List Token) :
    reading.take? (.pipe :: rest) = reading.finishStep?.bind fun next => next.take? rest :=
  rfl

theorem take?_background (reading : Reading) :
    reading.take? [.background] =
      ({ reading with draft := { reading.draft with background := true } } : Reading).finishStep? :=
  rfl

/-! ## Reading a segment -/

/-- The reading after a sign and its file. -/
def name (reading : Reading) (sign : Token) (file : String) : Reading :=
  match sign with
  | .input => { reading with draft := { reading.draft with inputFile := some file } }
  | .output => { reading with draft := { reading.draft with outputFile := some file } }
  | _ => { reading with errorFile := some file }

/-- The reading after a segment. -/
def after (reading : Reading) (segment : List Token) : Reading where
  draft := reading.draft.naming segment
  words := reading.words ++ commandWords segment
  errorFile := (filesAfter .errorOutput segment).getLast?.or reading.errorFile

private theorem after_nil (reading : Reading) : reading.after [] = reading := by
  simp [after, JobDraft.naming, filesAfter, commandWords, paired]

private theorem after_word (reading : Reading) (text : String) (rest : List Token) :
    ({ reading with words := reading.words ++ [text] } : Reading).after rest =
      reading.after (.word text :: rest) := by
  simp [after, JobDraft.naming, filesAfter_word .input rfl, filesAfter_word .output rfl,
    filesAfter_word .errorOutput rfl]

private theorem after_file (reading : Reading) {sign : Token} (naming : sign.namesFile = true)
    (file : String) (rest : List Token) :
    (reading.name sign file).after rest = reading.after (sign :: .word file :: rest) := by
  have words := commandWords_file naming file rest
  have inputs := filesAfter_file .input sign rfl file rest
  have outputs := filesAfter_file .output sign rfl file rest
  have errors := filesAfter_file .errorOutput sign rfl file rest
  cases sign with
  | input | output | errorOutput =>
      simp [after, name, JobDraft.naming, words, inputs, outputs, errors, List.getLast?_cons]
  | word _ | pipe | background => cases naming

private theorem take?_file (reading : Reading) {sign : Token} (naming : sign.namesFile = true)
    (file : String) (rest : List Token) :
    reading.take? (sign :: .word file :: rest) = (reading.name sign file).take? rest := by
  cases sign with
  | input | output | errorOutput => rfl
  | word _ | pipe | background => cases naming

private theorem take?_astray (reading : Reading) {sign : Token} {rest : List Token}
    (naming : sign.namesFile = true) (wordless : ∀ file, rest.head? ≠ some (.word file)) :
    reading.take? (sign :: rest) = none := by
  cases sign with
  | input | output | errorOutput =>
      cases rest with
      | nil => rfl
      | cons token others =>
          cases token with
          | word file => exact absurd rfl (wordless file)
          | pipe | input | output | errorOutput | background => rfl
  | word _ | pipe | background => cases naming

/-- The reader takes a segment whose signs name files as a whole. -/
theorem take?_segment {segment : List Token} (isSegment : IsSegment segment)
    (named : SignsNameFiles segment) (reading : Reading) (rest : List Token) :
    reading.take? (segment ++ rest) = (reading.after segment).take? rest := by
  induction isSegment generalizing reading with
  | nil => rw [List.nil_append, after_nil]
  | word text _ inductionHypothesis =>
      rw [signsNameFiles_word_iff] at named
      rw [List.cons_append, take?_word, ← after_word]
      exact inductionHypothesis named _
  | file file naming _ inductionHypothesis =>
      rw [signsNameFiles_file_iff] at named
      rw [List.cons_append, List.cons_append, take?_file reading naming, ← after_file _ naming]
      exact inductionHypothesis named _
  | astray naming wordless =>
      obtain ⟨file, first⟩ := ((signsNameFiles_cons_iff _ _).1 named).1 naming
      exact absurd first (wordless file)

/-- A sign without a file makes the reader refuse the line. -/
theorem take?_unnamed {segment : List Token} (isSegment : IsSegment segment)
    (unnamed : ¬SignsNameFiles segment) (reading : Reading) {rest : List Token}
    (wordless : ∀ file, rest.head? ≠ some (.word file)) :
    reading.take? (segment ++ rest) = none := by
  induction isSegment generalizing reading with
  | nil => exact absurd signsNameFiles_nil unnamed
  | word text _ inductionHypothesis =>
      rw [signsNameFiles_word_iff] at unnamed
      rw [List.cons_append, take?_word]
      exact inductionHypothesis unnamed _
  | file file naming _ inductionHypothesis =>
      rw [signsNameFiles_file_iff] at unnamed
      rw [List.cons_append, List.cons_append, take?_file reading naming]
      exact inductionHypothesis unnamed _
  | @astray sign others naming astray =>
      rw [List.cons_append]
      refine take?_astray reading naming fun file first => ?_
      cases others with
      | nil => exact wordless file (by simpa using first)
      | cons token others => exact astray file (by simpa using first)

/-- The reader refuses a line that goes on after `&`. -/
theorem take?_background_inside (front : List Token) (next : Token) (back : List Token)
    (reading : Reading) : reading.take? (front ++ .background :: next :: back) = none := by
  induction front using reading_cases generalizing reading with
  | nil => rfl
  | word text others inductionHypothesis => exact inductionHypothesis _
  | pipe others inductionHypothesis =>
      rw [List.cons_append, take?_pipe]
      cases reading.finishStep? with
      | none => rfl
      | some finished => exact inductionHypothesis finished
  | background others => cases others <;> rfl
  | file sign file others naming inductionHypothesis =>
      rw [List.cons_append, List.cons_append, take?_file reading naming]
      exact inductionHypothesis _
  | astray sign others naming wordless =>
      rw [List.cons_append]
      refine take?_astray reading naming fun file first => ?_
      cases others with
      | nil => simp at first
      | cons token others => exact wordless file (by simpa using first)

/-! ## Reading a line -/

private theorem finishStep?_after {segment : List Token} (worded : commandWords segment ≠ [])
    (draft : JobDraft) :
    ∃ step, Step.ReadFrom segment step ∧
      (({ draft := draft } : Reading).after segment).finishStep? =
        some { draft := draft.withSteps [step] segment } := by
  cases words : commandWords segment with
  | nil => exact absurd words worded
  | cons program arguments =>
      refine ⟨⟨program, arguments, (filesAfter .errorOutput segment).getLast?⟩,
        ⟨words.symm, rfl⟩, ?_⟩
      simp [after, finishStep?, words, JobDraft.withSteps, JobDraft.naming]

private theorem finishStep?_after_eq_none {segment : List Token}
    (wordless : commandWords segment = []) (draft : JobDraft) :
    (({ draft := draft } : Reading).after segment).finishStep? = none := by
  simp [after, finishStep?, wordless]

/-- What may stand after the last command of a line: nothing, or the one sign `&`. -/
def EndsLine (ending : List Token) : Prop :=
  ending = [] ∨ ending = [.background]

private theorem take?_ending {ending : List Token} (ends : EndsLine ending) (reading : Reading) :
    reading.take? ending =
      ({ reading with draft := reading.draft.endedBy ending } : Reading).finishStep? := by
  rcases ends with rfl | rfl
  · simp [take?_nil, JobDraft.endedBy]
  · simp [take?_background, JobDraft.endedBy]

/-- A line of commands is read one segment after the other. -/
theorem take?_commands {parts : List (List Token)} (some_part : parts ≠ [])
    (areSegments : ∀ part ∈ parts, IsSegment part)
    (named : ∀ part ∈ parts, SignsNameFiles part)
    (worded : ∀ part ∈ parts, commandWords part ≠ [])
    {ending : List Token} (ends : EndsLine ending) (draft : JobDraft) :
    ∃ steps, List.Forall₂ Step.ReadFrom parts steps ∧
      ({ draft := draft } : Reading).take? ([.pipe].intercalate parts ++ ending) =
        some { draft := (draft.endedBy ending).withSteps steps ([.pipe].intercalate parts) } := by
  induction parts generalizing draft with
  | nil => exact absurd rfl some_part
  | cons part others inductionHypothesis =>
      obtain ⟨isSegment, areSegments⟩ := List.forall_mem_cons.1 areSegments
      obtain ⟨partNamed, named⟩ := List.forall_mem_cons.1 named
      obtain ⟨partWorded, worded⟩ := List.forall_mem_cons.1 worded
      cases others with
      | nil =>
          obtain ⟨step, isRead, finished⟩ := finishStep?_after partWorded (draft.endedBy ending)
          refine ⟨[step], .cons isRead .nil, ?_⟩
          rw [List.intercalate_singleton, take?_segment isSegment partNamed, take?_ending ends]
          exact finished
      | cons next others =>
          obtain ⟨step, isRead, finished⟩ := finishStep?_after partWorded draft
          obtain ⟨steps, areRead, taken⟩ := inductionHypothesis (List.cons_ne_nil _ _)
            areSegments named worded (draft.withSteps [step] part)
          refine ⟨step :: steps, .cons isRead areRead, ?_⟩
          rw [List.intercalate_cons_cons, List.append_assoc, List.append_assoc,
            take?_segment isSegment partNamed, List.singleton_append, take?_pipe, finished,
            Option.bind_some, taken]
          have ended : (draft.withSteps [step] part).endedBy ending =
            (draft.endedBy ending).withSteps [step] part := rfl
          rw [ended, JobDraft.withSteps_withSteps, List.append_assoc part]
          rfl

/-- A segment that is no command makes the reader refuse the line, wherever the segment ends. -/
theorem take?_broken {part rest : List Token} (isSegment : IsSegment part)
    (broken : SignsNameFiles part → commandWords part = [])
    (follows : EndsLine rest ∨ ∃ others, rest = .pipe :: others) (draft : JobDraft) :
    ({ draft := draft } : Reading).take? (part ++ rest) = none := by
  by_cases named : SignsNameFiles part
  · rw [take?_segment isSegment named]
    rcases follows with ends | ⟨others, rfl⟩
    · rw [take?_ending ends]
      exact finishStep?_after_eq_none (broken named) (draft.endedBy rest)
    · rw [take?_pipe, finishStep?_after_eq_none (broken named)]
      rfl
  · refine take?_unnamed isSegment named _ fun file first => ?_
    rcases follows with (rfl | rfl) | ⟨others, rfl⟩ <;> cases first

private theorem take?_no_command {parts : List (List Token)}
    (areSegments : ∀ part ∈ parts, IsSegment part)
    (broken : ∃ part ∈ parts, SignsNameFiles part → commandWords part = [])
    {ending : List Token} (ends : EndsLine ending) (draft : JobDraft) :
    ({ draft := draft } : Reading).take? ([.pipe].intercalate parts ++ ending) = none := by
  induction parts generalizing draft with
  | nil =>
      obtain ⟨part, member, -⟩ := broken
      cases member
  | cons part others inductionHypothesis =>
      obtain ⟨isSegment, areSegments⟩ := List.forall_mem_cons.1 areSegments
      obtain ⟨bad, member, bad_broken⟩ := broken
      cases others with
      | nil =>
          obtain rfl := List.mem_singleton.1 member
          rw [List.intercalate_singleton]
          exact take?_broken isSegment bad_broken (.inl ends) draft
      | cons next others =>
          rw [List.intercalate_cons_cons, List.append_assoc, List.append_assoc]
          by_cases part_broken : SignsNameFiles part → commandWords part = []
          · exact take?_broken isSegment part_broken (.inr ⟨_, rfl⟩) draft
          · obtain ⟨named, worded⟩ := Classical.not_imp.1 part_broken
            obtain ⟨step, -, finished⟩ := finishStep?_after worded draft
            rw [take?_segment isSegment named, List.singleton_append, take?_pipe, finished,
              Option.bind_some]
            refine inductionHypothesis areSegments ⟨bad, ?_, bad_broken⟩ _
            rcases List.mem_cons.1 member with rfl | later
            · exact absurd bad_broken part_broken
            · exact later

end Job.Reading

/-! ## Lines -/

private theorem splitOn_pipe_barless {tokens part : List Token}
    (member : part ∈ tokens.splitOn .pipe) :
    .pipe ∉ part := by
  induction tokens generalizing part with
  | nil =>
      rw [List.splitOn_nil, List.mem_singleton] at member
      rw [member]
      exact List.not_mem_nil
  | cons token rest inductionHypothesis =>
      rw [List.splitOn_cons_eq_if_modifyHead] at member
      split at member
      case isTrue bar =>
        rcases List.mem_cons.1 member with rfl | later
        · exact List.not_mem_nil
        · exact inductionHypothesis later
      case isFalse differs =>
        cases parts : rest.splitOn .pipe with
        | nil => exact absurd parts (by simp)
        | cons first others =>
            rw [parts] at member inductionHypothesis
            rcases List.mem_cons.1 member with rfl | later
            · have other : .pipe ≠ token := fun same => differs (by simp [same])
              exact List.not_mem_cons_of_ne_of_not_mem other
                (inductionHypothesis List.mem_cons_self)
            · exact inductionHypothesis (List.mem_cons_of_mem first later)

/-- A line is its body and what ends it. -/
theorem lineBody_append (tokens : List Token) :
    ∃ ending, Job.Reading.EndsLine ending ∧ tokens = lineBody tokens ++ ending ∧
      (tokens.getLast? = some .background ↔ ending = [.background]) := by
  unfold lineBody
  split
  case isTrue last =>
    refine ⟨[.background], .inr rfl, ?_, iff_of_true last rfl⟩
    exact (List.dropLast_append_getLast? _ last).symm
  case isFalse last =>
    exact ⟨[], .inl rfl, (List.append_nil tokens).symm, iff_of_false last (by simp)⟩

private theorem segments_ne_nil (tokens : List Token) : segments tokens ≠ [] := by
  simp [segments]

private theorem intercalate_segments (tokens : List Token) :
    [.pipe].intercalate (segments tokens) = lineBody tokens := by
  simp [segments]

theorem mem_lineBody {tokens part : List Token} (member : part ∈ segments tokens) {token : Token}
    (inside : token ∈ part) : token ∈ lineBody tokens := by
  have within : ∀ parts : List (List Token), part ∈ parts → token ∈ [.pipe].intercalate parts := by
    intro parts
    induction parts with
    | nil => exact fun member => nomatch member
    | cons first others inductionHypothesis =>
        intro member
        cases others with
        | nil =>
            obtain rfl := List.mem_singleton.1 member
            rwa [List.intercalate_singleton]
        | cons next others =>
            rw [List.intercalate_cons_cons, List.append_assoc, List.mem_append]
            rcases List.mem_cons.1 member with rfl | later
            · exact Or.inl inside
            · exact Or.inr (List.mem_cons_of_mem _ (inductionHypothesis later))
  rw [← intercalate_segments]
  exact within _ member

private theorem isSegment_of_mem_segments {tokens : List Token}
    (endless : .background ∉ lineBody tokens) :
    ∀ part ∈ segments tokens, IsSegment part :=
  fun _ member => isSegment_of_not_mem (splitOn_pipe_barless member)
    fun sign => endless (mem_lineBody member sign)

/-- What `&` at the end of a line leaves of it names the same files. -/
theorem filesAfter_lineBody {sign : Token} (naming : sign.namesFile = true)
    (tokens : List Token) :
    filesAfter sign tokens = filesAfter sign (lineBody tokens) := by
  obtain ⟨ending, rfl | rfl, whole, -⟩ := lineBody_append tokens
  · rw [List.append_nil] at whole
    rw [← whole]
  · have nothing : filesAfter sign [] = [] := rfl
    rw [whole, filesAfter_append sign .background naming rfl rfl, nothing, List.append_nil, ← whole]

namespace Job

private theorem complete_of_steps (draft : JobDraft) (some_step : draft.steps ≠ []) :
    ∃ job : Job, draft.complete = .ok job ∧ job.input = draft.input ∧ job.steps = draft.steps ∧
      job.inputFile = draft.inputFile ∧ job.outputFile = draft.outputFile ∧
      job.background = draft.background := by
  unfold JobDraft.complete
  cases steps : draft.steps with
  | nil => exact absurd steps some_step
  | cons first rest => exact ⟨_, rfl, rfl, rfl, rfl, rfl, rfl⟩

private theorem take?_of_asksForJob {tokens : List Token} (asks : AsksForJob tokens)
    (input : String) :
    ∃ reading job, Reading.take? { draft := { input := input } } tokens = some reading ∧
      reading.draft.complete = .ok job ∧ job.input = input ∧ job.ReadFrom tokens := by
  obtain ⟨ending, ends, whole, last⟩ := lineBody_append tokens
  obtain ⟨steps, areRead, taken⟩ := Reading.take?_commands (segments_ne_nil tokens)
    (isSegment_of_mem_segments asks.ends) asks.files asks.words ends { input := input }
  rw [intercalate_segments, ← whole] at taken
  have some_step : steps ≠ [] := by
    rintro rfl
    exact segments_ne_nil tokens (List.length_eq_zero_iff.1 areRead.length_eq)
  obtain ⟨job, completed, inputs, itsSteps, inputFile, outputFile, background⟩ :=
    complete_of_steps ((JobDraft.endedBy { input := input } ending).withSteps steps
      (lineBody tokens)) some_step
  refine ⟨_, job, taken, completed, inputs, ?_, ?_, ?_, ?_⟩
  · rw [itsSteps]
    exact areRead
  · rw [inputFile, filesAfter_lineBody rfl]
    exact Option.or_none
  · rw [outputFile, filesAfter_lineBody rfl]
    exact Option.or_none
  · rw [background, last]
    rcases ends with rfl | rfl <;> simp [JobDraft.withSteps, JobDraft.naming, JobDraft.endedBy]

private theorem take?_of_not_asksForJob {tokens : List Token} (asks : ¬AsksForJob tokens)
    (input : String) : Reading.take? { draft := { input := input } } tokens = none := by
  obtain ⟨ending, ends, whole, last⟩ := lineBody_append tokens
  by_cases endless : .background ∈ lineBody tokens
  · obtain ⟨front, back, body⟩ := List.append_of_mem endless
    rw [body, List.append_assoc, List.cons_append] at whole
    cases follows : back ++ ending with
    | nil =>
        -- The sign would stand at the end of the line, and the body would be without it.
        rw [follows] at whole
        have ended := last.1 (by simp [whole])
        simp [ended] at follows
    | cons next others =>
        rw [whole, follows]
        exact Reading.take?_background_inside front next others _
  · have broken : ∃ part ∈ segments tokens, SignsNameFiles part → commandWords part = [] := by
      by_contra none
      refine asks ⟨endless, fun part member => ?_, fun part member wordless => ?_⟩
      · by_contra unnamed
        exact none ⟨part, member, fun named => absurd named unnamed⟩
      · exact none ⟨part, member, fun _ => wordless⟩
    have refused := Reading.take?_no_command (isSegment_of_mem_segments endless) broken ends
      { input := input }
    rwa [intercalate_segments, ← whole] at refused

theorem parse_of_no_token {line : String} (none : ofText line = []) : parse line = .ok .none := by
  unfold parse
  dsimp only
  rw [ofText_trim, none]

theorem parse_of_token {line : String} (some_token : ofText line ≠ []) :
    parse line =
      match Reading.take? { draft := { input := Text.trim line } } (ofText line) with
      | none => .error (.failure (.badLine (Text.trim line)))
      | some reading =>
          match reading.draft.complete with
          | .ok job => .ok (some job)
          | .error breach => .error (.breach breach) := by
  unfold parse
  dsimp only
  rw [ofText_trim]
  cases tokens : ofText line with
  | nil => exact absurd tokens some_token
  | cons token others => rfl

theorem parse_of_asksForJob {line : String} (asks : AsksForJob (ofText line)) :
    ∃ job, parse line = .ok (some job) ∧ job.input = Text.trim line ∧
      job.ReadFrom (ofText line) := by
  have some_token : ofText line ≠ [] := by
    intro none
    rw [none] at asks
    exact asks.words [] List.mem_cons_self rfl
  obtain ⟨reading, job, taken, completed, inputs, isRead⟩ :=
    take?_of_asksForJob asks (Text.trim line)
  refine ⟨job, ?_, inputs, isRead⟩
  rw [parse_of_token some_token, taken]
  dsimp only
  rw [completed]

theorem parse_of_not_asksForJob {line : String} (some_token : ofText line ≠ [])
    (asks : ¬AsksForJob (ofText line)) :
    parse line = .error (.failure (.badLine (Text.trim line))) := by
  rw [parse_of_token some_token, take?_of_not_asksForJob asks]

private theorem asksForJob_of_parse {line : String} {job : Job}
    (read : parse line = .ok (some job)) :
    AsksForJob (ofText line) := by
  by_contra asks
  by_cases some_token : ofText line = []
  · rw [parse_of_no_token some_token] at read
    cases read
  · rw [parse_of_not_asksForJob some_token asks] at read
    cases read

theorem isReadFrom_of_parse {line : String} {job : Job} (read : parse line = .ok (some job)) :
    job.input = Text.trim line ∧ job.ReadFrom (ofText line) := by
  obtain ⟨same, again, inputs, isRead⟩ := parse_of_asksForJob (asksForJob_of_parse read)
  rw [read] at again
  cases again
  exact ⟨inputs, isRead⟩

/-- Every line is a job, is no job, or has no tokens; which of them, and which job, is decided by
the grammar, and nothing else comes of reading a line. -/
theorem parse_agrees_with_grammar (line : String) :
    (ofText line = [] → parse line = .ok none) ∧
    (ofText line ≠ [] →
      ((∃ job, parse line = .ok (some job)) ↔ AsksForJob (ofText line)) ∧
      (¬AsksForJob (ofText line) →
        parse line = .error (.failure (.badLine (Text.trim line))))) ∧
    ∀ job, parse line = .ok (some job) →
      job.input = Text.trim line ∧ job.ReadFrom (ofText line) := by
  refine ⟨parse_of_no_token, fun some_token => ⟨⟨?_, fun asks => ?_⟩, ?_⟩,
    fun job read => isReadFrom_of_parse read⟩
  · rintro ⟨job, read⟩
    exact asksForJob_of_parse read
  · obtain ⟨job, read, -⟩ := parse_of_asksForJob asks
    exact ⟨job, read⟩
  · exact parse_of_not_asksForJob some_token

end Job

end JobControl
