import JobControl.Proofs.Pipeline
/-!
# What a pipeline is made of

However pipes are made, programs started and children ended, a pipeline of at least two steps either
stands, each step joined to the next by a pipe whose ends only these two were given, or is given up,
because a pipe could not be made.  Then the steps started before it have been collected in order,
all of them or those up to one of whose ending nothing could be told.  In each case the session
holds what it held before.
-/

namespace JobControl

open Relation World

/-! ## Steps and their pipes -/

/-- What a step reads from: the pipe of the step before it. -/
def inputAt (pipes : Nat) (source : Stream) (place : Nat) : Stream :=
  if place = 0 then source else .given (.pipeEnd (.reading (pipes + place - 1)))

/-- What a step writes to: its own pipe, or what the session writes to if it is the last. -/
def outputAt (pipes count place : Nat) : Stream :=
  if place + 1 = count then .own else .given (.pipeEnd (.writing (pipes + place)))

private theorem pipelineOutfits_length (others : List Opened) (pipes : Nat) (source : Stream)
    (steps : List Step) : (pipelineOutfits others pipes source steps).length = steps.length := by
  fun_induction pipelineOutfits others pipes source steps with
  | case1 => rfl
  | case2 => rfl
  | case3 pipes source step next rest inductionHypothesis =>
      simp only [List.length_cons, inductionHypothesis]

private theorem pipelineOutfits_getElem? {steps : List Step} {place : Nat} {step : Step}
    (found : steps[place]? = some step) (others : List Opened) (pipes : Nat) (source : Stream) :
    (pipelineOutfits others pipes source steps)[place]? =
      some ⟨step.program, step.arguments, inputAt pipes source place,
        outputAt pipes steps.length place, .own, others⟩ := by
  fun_induction pipelineOutfits others pipes source steps generalizing place with
  | case1 =>
      cases found
  | case2 pipes source last =>
      cases place with
      | zero =>
          cases found
          rfl
      | succ place =>
          cases found
  | case3 pipes source first next rest inductionHypothesis =>
      cases place with
      | zero =>
          cases found
          simp [inputAt, outputAt]
      | succ place =>
          rw [List.getElem?_cons_succ] at found ⊢
          rw [inductionHypothesis found]
          have input : inputAt (pipes + 1) (.given (.pipeEnd (.reading pipes))) place =
              inputAt pipes source (place + 1) := by
            unfold inputAt
            by_cases first : place = 0
            · simp [first]
            · rw [if_neg first, if_neg (Nat.succ_ne_zero place)]
              congr 3
              omega
          have output : outputAt (pipes + 1) (next :: rest).length place =
              outputAt pipes (first :: next :: rest).length (place + 1) := by
            unfold outputAt
            simp only [List.length_cons, Nat.add_right_cancel_iff]
            congr 4
            omega
          rw [input, output]

/-- What the step in a place of a pipeline is given. -/
def outfitAt (others : List Opened) (pipes count place : Nat) (step : Step) : Outfit :=
  ⟨step.program, step.arguments, inputAt pipes .own place, outputAt pipes count place, .own, others⟩

private theorem inputAt_eq_reading_iff (pipes place number : Nat) :
    inputAt pipes .own place = .given (.pipeEnd (.reading (pipes + number))) ↔
      place = number + 1 := by
  unfold inputAt
  by_cases first : place = 0
  · rw [if_pos first]
    constructor
    · exact fun equal => nomatch equal
    · omega
  · rw [if_neg first]
    simp only [Stream.given.injEq, Opened.pipeEnd.injEq, PipeEnd.reading.injEq]
    omega

private theorem inputAt_ne_writing (pipes place number : Nat) :
    inputAt pipes .own place ≠ .given (.pipeEnd (.writing number)) := by
  unfold inputAt
  split
  · exact fun equal => nomatch equal
  · exact fun equal => nomatch equal

private theorem outputAt_eq_writing_iff {pipes count place number : Nat}
    (within : number + 1 < count) :
    outputAt pipes count place = .given (.pipeEnd (.writing (pipes + number))) ↔
      place = number := by
  unfold outputAt
  by_cases last : place + 1 = count
  · rw [if_pos last]
    constructor
    · exact fun equal => nomatch equal
    · omega
  · rw [if_neg last]
    simp only [Stream.given.injEq, Opened.pipeEnd.injEq, PipeEnd.writing.injEq]
    omega

private theorem outputAt_ne_reading (pipes count place number : Nat) :
    outputAt pipes count place ≠ .given (.pipeEnd (.reading number)) := by
  unfold outputAt
  split
  · exact fun equal => nomatch equal
  · exact fun equal => nomatch equal

section Given

variable {others : List Opened} {pipes count place number : Nat}

/-- Of the steps of a pipeline only one is given the end to write to of its pipe. -/
theorem isGiven_writing_iff (older : ∀ pipeEnd, .pipeEnd pipeEnd ∈ others → pipeEnd.pipe < pipes)
    (step : Step) (within : number + 1 < count) :
    (outfitAt others pipes count place step).IsGiven (.writing (pipes + number)) ↔
      place = number := by
  have apart : Opened.pipeEnd (.writing (pipes + number)) ∉ others := fun member =>
    absurd (older _ member) (Nat.not_lt.2 (Nat.le_add_right pipes number))
  unfold Outfit.IsGiven outfitAt
  simp only [inputAt_ne_writing, outputAt_eq_writing_iff within, apart, false_or, or_false,
    reduceCtorEq]

/-- Of the steps of a pipeline only the one after it is given the end to read from. -/
theorem isGiven_reading_iff (older : ∀ pipeEnd, .pipeEnd pipeEnd ∈ others → pipeEnd.pipe < pipes)
    (step : Step) :
    (outfitAt others pipes count place step).IsGiven (.reading (pipes + number)) ↔
      place = number + 1 := by
  have apart : Opened.pipeEnd (.reading (pipes + number)) ∉ others := fun member =>
    absurd (older _ member) (Nat.not_lt.2 (Nat.le_add_right pipes number))
  unfold Outfit.IsGiven outfitAt
  simp only [inputAt_eq_reading_iff, outputAt_ne_reading, apart, or_false, reduceCtorEq]

end Given

/-! ## Pipelines that stand and pipelines that were given up -/

/-- What the session passes on to every child of the handles that it held before is older than the
pipes that it makes. -/
theorem Kernel.Numbered.passedOn {kernel : Kernel} (numbered : kernel.Numbered)
    (pipeEnd : PipeEnd) (member : .pipeEnd pipeEnd ∈ passedOn kernel.handles) :
    pipeEnd.pipe < kernel.pipes := by
  obtain ⟨held, inside, equal⟩ := Plumbs.of_passedOn member
  exact numbered.handles held inside pipeEnd equal

/-- A pipeline that stands: from the kernel before it was started, the steps, the records of them,
and the kernel after. -/
structure PipelineBuilt (endings : Ending → Prop) (before : Kernel) (steps : List Step)
    (records : List StartedStep) (after : Kernel) : Prop where
  /-- One pipe less than there are steps has been asked for and made. -/
  pipes : after.pipeResults =
    List.replicate (steps.length - 1) (.ok ()) ++ before.pipeResults
  /-- There was one attempt for each step. -/
  attempts : after.attempts.length = before.attempts.length + steps.length
  counted : records.length = steps.length
  /-- The attempts and the records are in the order of the steps. -/
  each : ∀ (place : Nat) (step : Step), steps[place]? = some step →
    ∃ attempt record, after.attempts[before.attempts.length + place]? = some attempt ∧
      records[place]? = some record ∧
      attempt.outfit = outfitAt (passedOn before.handles) before.pipes steps.length place step ∧
      record.commandLine = step.commandLine ∧ record.Begins attempt
  handles : after.handles = before.handles
  /-- No end of its pipes is held. -/
  unheld : ∀ held ∈ after.handles, ∀ pipeEnd, held.opened = .pipeEnd pipeEnd →
    pipeEnd.pipe < before.pipes
  /-- For good, the ends of each pipe are those of the two steps it joins only. -/
  owned : ∀ later, (Kernel.world endings).Later after later → ∀ place, place + 1 < steps.length →
    later.GivenOnly (.writing (before.pipes + place)) (before.attempts.length + place) ∧
      later.GivenOnly (.reading (before.pipes + place)) (before.attempts.length + (place + 1))
  /-- Once a step does not run any more, nobody can write what the next step reads. -/
  endOfInput : ∀ later, (Kernel.world endings).Later after later → ∀ place,
    place + 1 < steps.length →
    (∀ attempt, later.attempts[before.attempts.length + place]? = some attempt →
      attempt.life.isRunning = false) →
    ¬ later.IsHeld (.writing (before.pipes + place))

/-- A pipeline that was given up because the pipe after some others could not be made. -/
structure PipelineGivenUp (before : Kernel) (steps : List Step) (made : Nat) (reason : Errno)
    (after : Kernel) : Prop where
  fewer : made + 1 < steps.length
  pipes : after.pipeResults =
    .error reason :: (List.replicate made (.ok ()) ++ before.pipeResults)
  /-- There was one attempt for each pipe that was made, and none for a later step. -/
  attempts : after.attempts.length = before.attempts.length + made
  each : ∀ (place : Nat) (step : Step), place < made → steps[place]? = some step →
    ∃ attempt, after.attempts[before.attempts.length + place]? = some attempt ∧
      attempt.outfit = outfitAt (passedOn before.handles) before.pipes steps.length place step
  handles : after.handles = before.handles
  /-- No end of its pipes is held. -/
  unheld : ∀ held ∈ after.handles, ∀ pipeEnd, held.opened = .pipeEnd pipeEnd →
    pipeEnd.pipe < before.pipes

/-- A pipeline that was given up, and all of whose steps have been waited for. -/
structure PipelineCleared (before : Kernel) (steps : List Step) (made : Nat) (reason : Errno)
    (after : Kernel) : Prop extends PipelineGivenUp before steps made reason after where
  /-- The attempts were refused or their children have been collected. -/
  settled : ∀ place < made, ∃ attempt outcome,
    after.attempts[before.attempts.length + place]? = some attempt ∧
      attempt.life.outcome? = some outcome

/-- A pipeline that was given up, and one of whose steps could not be waited for: its child has been
collected, but nothing could be told of its ending.  The steps before it have been waited for. -/
structure PipelineBroken (endings : Ending → Prop) (before : Kernel) (steps : List Step)
    (made : Nat) (reason : Errno) (place : Nat) (pid : Pid) (after : Kernel) : Prop extends
    PipelineGivenUp before steps made reason after where
  within : place < made
  breaks : BreaksAt endings before.attempts.length place pid after.attempts

private theorem exists_outfit {before after : List Attempt} {outfits : List Outfit}
    (more : outfitsOf after = outfitsOf before ++ outfits) {place : Nat} {outfit : Outfit}
    (found : outfits[place]? = some outfit) :
    ∃ attempt, after[before.length + place]? = some attempt ∧ attempt.outfit = outfit := by
  have there : (outfitsOf after)[before.length + place]? = some outfit := by
    rw [more, List.getElem?_append_right (by rw [outfitsOf, List.length_map]; omega)]
    rw [outfitsOf, List.length_map, Nat.add_sub_cancel_left]
    exact found
  rw [outfitsOf, List.getElem?_map, Option.map_eq_some_iff] at there
  exact there

private theorem length_of_outfits {before after : List Attempt} {outfits : List Outfit}
    (more : outfitsOf after = outfitsOf before ++ outfits) :
    after.length = before.length + outfits.length := by
  have lengths := congrArg List.length more
  rwa [List.length_append, outfitsOf, outfitsOf, List.length_map, List.length_map] at lengths

/-- The ends of the pipe between two steps are theirs only. -/
theorem givenOnly_of_outfits {before after : Kernel} {steps : List Step}
    (numbered : before.Numbered)
    (more : outfitsOf after.attempts = outfitsOf before.attempts ++
      pipelineOutfits (passedOn before.handles) before.pipes .own steps)
    (handles : after.handles = before.handles)
    (pipes : after.pipes = before.pipes + (steps.length - 1))
    {pipeEnd : PipeEnd} {place owner : Nat} (within : place + 1 < steps.length)
    (number : pipeEnd.pipe = before.pipes + place) (inside : owner < steps.length)
    (owned : ∀ other step, steps[other]? = some step →
      ((outfitAt (passedOn before.handles) before.pipes steps.length other step).IsGiven pipeEnd ↔
        other = owner)) :
    after.GivenOnly pipeEnd (before.attempts.length + owner) := by
  refine ⟨?_, ?_, ?_, ?_⟩
  · omega
  · intro held member equal
    rw [handles] at member
    have earlier := numbered.handles held member pipeEnd equal
    omega
  · intro other outfit found
    rw [more, List.getElem?_append] at found
    split at found
    · rename_i early
      rw [outfitsOf, List.length_map] at early
      constructor
      · intro given
        have earlier := numbered.outfits outfit (List.mem_of_getElem? found) pipeEnd given
        omega
      · omega
    · rename_i late
      rw [outfitsOf, List.length_map] at late found
      have short : other - before.attempts.length < steps.length := by
        have known := (List.getElem?_eq_some_iff.1 found).1
        rwa [pipelineOutfits_length] at known
      have step := List.getElem?_eq_getElem short
      rw [pipelineOutfits_getElem? step] at found
      cases found
      refine (owned _ _ step).trans ?_
      omega
  · rw [length_of_outfits more, pipelineOutfits_length]
    omega

section Outcomes

variable {endings : Ending → Prop} {kernel answered after : Kernel} {steps : List Step}

theorem PipelineBegun.built {records : List StartedStep} (numbered : kernel.Numbered)
    (begun : PipelineBegun endings kernel kernel.handles none kernel.attempts.length [] steps
      (.ok records) answered)
    (drifts : (Kernel.world endings).Drifts answered after) :
    PipelineBuilt endings kernel steps records after := by
  obtain ⟨plumbing, outfits, begins, lines⟩ := begun
  have same := Kernel.plumbing_of_drifts drifts
  rw [plumbing] at same
  have handles : after.handles = kernel.handles := congrArg Prod.fst same
  have pipes : after.pipes = kernel.pipes + (steps.length - 1) :=
    congrArg (fun all => all.2.1) same
  have ages := Kernel.ages_of_drifts drifts
  have more : outfitsOf after.attempts = outfitsOf kernel.attempts ++
      pipelineOutfits (passedOn kernel.handles) kernel.pipes .own steps :=
    ages.outfits_eq.trans outfits
  have begun := begins.of_ages ages
  rw [List.map_nil, List.nil_append] at lines
  have counted : records.length = steps.length := by
    have lengths := congrArg List.length lines
    rwa [List.length_map, List.length_map] at lengths
  have total := length_of_outfits more
  rw [pipelineOutfits_length] at total
  have owned : ∀ place, place + 1 < steps.length →
      after.GivenOnly (.writing (kernel.pipes + place)) (kernel.attempts.length + place) ∧
        after.GivenOnly (.reading (kernel.pipes + place))
          (kernel.attempts.length + (place + 1)) := by
    intro place within
    have before : place < steps.length := by omega
    exact ⟨givenOnly_of_outfits numbered more handles pipes within rfl before
        fun other step _ => isGiven_writing_iff numbered.passedOn step within,
      givenOnly_of_outfits numbered more handles pipes within rfl within
        fun other step _ => isGiven_reading_iff numbered.passedOn step⟩
  refine ⟨congrArg (fun all => all.2.2) same, total, counted, ?_, handles, ?_, ?_, ?_⟩
  · intro place step found
    obtain ⟨attempt, there, outfit⟩ :=
      exists_outfit more (pipelineOutfits_getElem? found _ kernel.pipes .own)
    have inside : place < records.length := by
      rw [counted]
      exact (List.getElem?_eq_some_iff.1 found).1
    have line := congrArg (fun all => all[place]?) lines
    simp only [List.getElem?_map, found, List.getElem?_eq_getElem inside, Option.map_some,
      Option.some.injEq] at line
    have dropped : (after.attempts.drop kernel.attempts.length)[place]? = some attempt := by
      rw [List.getElem?_drop]
      exact there
    obtain ⟨short, equal⟩ := List.getElem?_eq_some_iff.1 dropped
    have begins := begun.begins.get inside short
    rw [List.get_eq_getElem, List.get_eq_getElem, equal] at begins
    exact ⟨attempt, records[place], there, List.getElem?_eq_getElem inside, outfit, line, begins⟩
  · intro held member
    rw [handles] at member
    exact numbered.handles held member
  · intro later follows place within
    obtain ⟨writing, reading⟩ := owned place within
    exact ⟨writing.of_later follows, reading.of_later follows⟩
  · intro later follows place within gone
    exact ((owned place within).1.of_later follows).not_isHeld gone

private theorem PipelineBegun.givenUp {failure : Failure} (numbered : kernel.Numbered)
    (begun : PipelineBegun endings kernel kernel.handles none kernel.attempts.length [] steps
      (.error (.failure failure)) answered)
    (drifts : (Kernel.world endings).Drifts answered after) :
    ∃ made reason, PipelineGivenUp kernel steps made reason after ∧
      GivesUp endings kernel.attempts.length reason after.attempts failure := by
  obtain ⟨reason, made, fewer, plumbing, outfits, within, givesUp⟩ := begun
  have same := Kernel.plumbing_of_drifts drifts
  rw [plumbing] at same
  have handles : after.handles = kernel.handles := congrArg Prod.fst same
  have ages := Kernel.ages_of_drifts drifts
  have more : outfitsOf after.attempts = outfitsOf kernel.attempts ++
      (pipelineOutfits (passedOn kernel.handles) kernel.pipes .own steps).take made :=
    ages.outfits_eq.trans outfits
  have total := length_of_outfits more
  rw [List.length_take, pipelineOutfits_length] at total
  refine ⟨made, reason, ⟨fewer, congrArg (fun all => all.2.2) same, by omega, ?_, handles, ?_⟩,
    givesUp.of_ages ages⟩
  · intro place step early found
    apply exists_outfit more
    rw [List.getElem?_take_of_lt early]
    exact pipelineOutfits_getElem? found _ kernel.pipes .own
  · intro held member
    rw [handles] at member
    exact numbered.handles held member

/-- A pipeline of at least two steps is built, or given up because a pipe could not be made, unless
the session stopped over a notice of a step that never started.  The children may end in any way;
only if one of them ended in a way of which nothing can be told, the steps of a pipeline that is
given up are not all waited for, and then the failed wait is what is returned. -/
theorem startPipeline_builds_or_clears {outcome : Except Stop (List StartedStep)}
    (arising : (Kernel.world endings).Later {} kernel) (several : 2 ≤ steps.length)
    (run : (Kernel.world endings).Leads ⟨(startPipeline none [] steps).run, kernel⟩
      ⟨.done outcome, after⟩) :
    (∃ records, outcome = .ok records ∧ PipelineBuilt endings kernel steps records after) ∨
      (∃ made reason, outcome = .error (.failure (.pipe reason)) ∧
        PipelineCleared kernel steps made reason after) ∨
      (∃ made reason place pid, outcome = .error (.failure (.waitFailed pid.number)) ∧
        PipelineBroken endings kernel steps made reason place pid after) ∨
      ∃ stop, outcome = .error stop ∧ NoticeRefused stop after := by
  have numbered := Kernel.Numbered.of_later arising
  have orderly : Orderly endings kernel.attempts := Orderly.of_later Orderly.nil arising
  have nonempty : steps ≠ [] := by
    rintro rfl
    exact absurd several (by decide)
  have ensured := startPipeline_begins nonempty (show Holds kernel.handles none _ from rfl)
    (Begun.nothing orderly)
  obtain ⟨answered, drifts, begun⟩ := ensured.result run
  rcases outcome with (failure | breach) | records
  · obtain ⟨made, reason, givenUp, givesUp⟩ := PipelineBegun.givenUp numbered begun drifts
    cases givesUp with
    | cleared settled =>
        refine .inr (.inl ⟨made, reason, rfl, givenUp, fun place before => ?_⟩)
        exact settled.exists_at givenUp.attempts before
    | @broken place pid breaks =>
        refine .inr (.inr (.inl ⟨made, reason, place, pid, rfl, givenUp, ?_, breaks⟩))
        obtain ⟨attempt, ending, found, -⟩ := breaks.collected
        have inside := (List.getElem?_eq_some_iff.1 found).1
        rw [givenUp.attempts] at inside
        omega
  · obtain ⟨text, reason, stopped, logged⟩ := begun
    rw [← Kernel.calls_of_drifts drifts] at logged
    exact .inr (.inr (.inr ⟨_, rfl, text, reason, stopped, logged⟩))
  · exact .inl ⟨records, rfl, PipelineBegun.built numbered begun drifts⟩

end Outcomes

theorem startPipeline_builds_two :
    ∃ records after,
      (Kernel.world fun _ => True).Leads
        ⟨(startPipeline none [] [{ program := "yes" }, { program := "head" }]).run, {}⟩
        ⟨.done (.ok records), after⟩ ∧
      PipelineBuilt (fun _ => True) {} [{ program := "yes" }, { program := "head" }] records
        after := by
  have run : ∃ records after,
      (Kernel.world fun _ => True).Leads
        ⟨(startPipeline none [] [{ program := "yes" }, { program := "head" }]).run, {}⟩
        ⟨.done (.ok records), after⟩ := by
    apply Exists.intro
    apply Exists.intro
    refine Leads.answer (.ok (⟨3⟩, ⟨4⟩)) ⟨_, ⟨rfl, rfl, by decide, rfl⟩, rfl⟩ ?_
    refine Leads.answer (.ok ⟨10⟩) ⟨_, ⟨by decide, rfl⟩, rfl⟩ ?_
    refine Leads.answer () ⟨_, rfl, rfl⟩ ?_
    refine Leads.answer (.ok ⟨11⟩) ⟨_, ⟨by decide, rfl⟩, rfl⟩ ?_
    refine Leads.answer () ⟨_, rfl, rfl⟩ ?_
    exact ReflTransGen.refl
  obtain ⟨records, after, leads⟩ := run
  refine ⟨records, after, leads, ?_⟩
  rcases startPipeline_builds_or_clears ReflTransGen.refl (by decide) leads with
    ⟨_, equal, built⟩ | ⟨_, _, equal, -⟩ | ⟨_, _, _, _, equal, -⟩ | ⟨_, equal, -⟩
  · cases equal
    exact built
  · cases equal
  · cases equal
  · cases equal

end JobControl
