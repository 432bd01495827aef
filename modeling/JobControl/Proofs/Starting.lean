import JobControl.Proofs.Kernel.Outfits
import JobControl.Proofs.Reaping
/-!
# Steps that have been started

What a session says of the steps that it has started is right for the last stretch of the kernel's
table: a running step is a child that runs or has ended, a step that never started was refused.
Starting a step makes the stretch longer by one attempt; waiting for all steps of the stretch
settles every attempt in it and brings the status of the last one.
-/

namespace JobControl

open Relation World

/-! ## While time passes -/

/-- What is given for a step with these streams. -/
def Kernel.outfit (kernel : Kernel) (step : Step) (streams : Redirections) : Outfit where
  program := step.program
  arguments := step.arguments
  input := kernel.stream streams.input
  output := kernel.stream streams.output
  errors := kernel.stream streams.errors
  others := passedOn kernel.handles

/-- What came of the making of a pipe. -/
def Answered.pipe? : Answered → Option (Except Errno Unit)
  | ⟨.makePipe _, .ok _⟩ => some (.ok ())
  | ⟨.makePipe _, .error reason⟩ => some (.error reason)
  | _ => none

/-- What came of the making of pipes, the latest first. -/
def Kernel.pipeResults (kernel : Kernel) : List (Except Errno Unit) :=
  kernel.calls.filterMap Answered.pipe?

/-- What handles stand for, and the pipes that have been made. -/
def Kernel.plumbing (kernel : Kernel) :
    List Held × Nat × List (Except Errno Unit) :=
  (kernel.handles, kernel.pipes, kernel.pipeResults)

theorem Ages.outfits_eq {endings : Ending → Prop} {before after : List Attempt}
    (ages : Ages endings before after) : outfitsOf after = outfitsOf before := by
  induction ages with
  | refl => rfl
  | tail _ turned inductionHypothesis =>
      obtain ⟨pid, ending, -, turns⟩ := turned
      exact turns.outfits_eq.trans inductionHypothesis

theorem Ages.length_eq {endings : Ending → Prop} {before after : List Attempt}
    (ages : Ages endings before after) : after.length = before.length := by
  induction ages with
  | refl => rfl
  | tail _ turned inductionHypothesis =>
      obtain ⟨pid, ending, -, turns⟩ := turned
      exact turns.length_eq.trans inductionHypothesis

section Plain

variable {endings : Ending → Prop} {kernel : Kernel}

/-- Plain calls do nothing to the children. -/
theorem Program.Within.ages {α : Type} {good : α → Prop} {program : Program α}
    (plain : program.Within (fun call => call.isPlain = true) good) {table : List Attempt}
    (ages : Ages endings table kernel.attempts) :
    (Kernel.world endings).Ensures (fun _ _ => True) program
      (fun result after => good result ∧ Ages endings table after.attempts) kernel := by
  let holds : Kernel → Prop := fun after => Ages endings table after.attempts
  refine Program.Within.ensures ?_ (fun _ _ _ _ => trivial) ?_ plain (show holds kernel from ages)
  · intro before later stirs aged
    exact aged.trans (Kernel.ages_of_drifts (ReflTransGen.single stirs))
  · intro call before given later allowed answers aged
    exact (Kernel.attempts_of_plain allowed answers).symm ▸ aged

/-- While a program makes plain calls, some children may end, and nothing more. -/
theorem ages_of_plain {α : Type} {good : α → Prop} {program : Program α}
    (plain : program.Within (fun call => call.isPlain = true) good) (kernel : Kernel) :
    (Kernel.world endings).Ensures (fun _ _ => True) program
      (fun _ after => Ages endings kernel.attempts after.attempts) kernel :=
  (Program.Within.ages plain ReflTransGen.refl).mono fun _ _ reached => reached.2

end Plain

/-- What came of each of the last attempts of a table is known if it is known of all of them. -/
theorem Settled.exists_at {table : List Attempt} {start count place : Nat}
    (settled : Settled (table.drop start)) (length : table.length = start + count)
    (inside : place < count) :
    ∃ attempt outcome, table[start + place]? = some attempt ∧
      attempt.life.outcome? = some outcome := by
  have within : start + place < table.length := by omega
  have found : (table.drop start)[place]? = some table[start + place] := by
    rw [List.getElem?_drop, List.getElem?_eq_getElem within]
  obtain ⟨outcome, known⟩ := settled _ (List.mem_of_getElem? found)
  exact ⟨_, outcome, List.getElem?_eq_getElem within, known⟩

theorem Turns.settled {pid : Pid} {ending : Ending} {attempts turned : List Attempt}
    (turns : Turns (.running pid) (.ended pid ending) attempts turned)
    (settled : Settled attempts) : False := by
  obtain ⟨attempt, member, lived⟩ := turns.exists_mem
  obtain ⟨outcome, known⟩ := settled attempt member
  rw [lived] at known
  cases known

/-- A part of a table that is settled stays as it is when children end. -/
theorem Settled.of_ages {endings : Ending → Prop} {part : List Attempt → List Attempt}
    (turnsPart : ∀ {old new : Life} {attempts turned : List Attempt},
      Turns old new attempts turned →
        part turned = part attempts ∨ Turns old new (part attempts) (part turned))
    {before after : List Attempt} (settled : Settled (part before))
    (ages : Ages endings before after) :
    part after = part before := by
  induction ages with
  | refl => rfl
  | tail _ turned inductionHypothesis =>
      obtain ⟨pid, ending, -, turns⟩ := turned
      rcases turnsPart turns with same | inside
      · exact same.trans inductionHypothesis
      · rw [inductionHypothesis] at inside
        exact (inside.settled settled).elim

theorem Answered.IsIdle.pipe? {answered : Answered} (idle : answered.IsIdle) :
    answered.pipe? = none := by
  cases idle <;> rfl

private theorem Kernel.Lingers.plumbing_eq {endings : Ending → Prop} {kernel after : Kernel}
    (lingers : Lingers endings kernel after) : after.plumbing = kernel.plumbing := by
  unfold Kernel.plumbing Kernel.pipeResults
  rw [lingers.handles, lingers.pipes, lingers.filterMap_calls fun _ => Answered.IsIdle.pipe?]

theorem Kernel.plumbing_of_drifts {endings : Ending → Prop} {kernel after : Kernel}
    (drifts : (Kernel.world endings).Drifts kernel after) : after.plumbing = kernel.plumbing :=
  (Lingers.of_drifts drifts).plumbing_eq

theorem Kernel.stream_of_plumbing {kernel after : Kernel}
    (same : after.plumbing = kernel.plumbing) (handle : Option Handle) :
    after.stream handle = kernel.stream handle := by
  have handles : after.handles = kernel.handles := congrArg Prod.fst same
  unfold Kernel.stream Kernel.opened?
  rw [handles]

private theorem Kernel.outfit_of_plumbing {kernel after : Kernel}
    (same : after.plumbing = kernel.plumbing) (step : Step) (streams : Redirections) :
    after.outfit step streams = kernel.outfit step streams := by
  have handles : after.handles = kernel.handles := congrArg Prod.fst same
  unfold Kernel.outfit
  simp only [Kernel.stream_of_plumbing same, handles]

/-! ## Steps and attempts -/

/-- What is said of a step that was started is right for an attempt. -/
def StartedStep.Begins (started : StartedStep) (attempt : Attempt) : Prop :=
  match started.state with
  | .running pid => attempt.life = .running pid ∨ ∃ ending, attempt.life = .ended pid ending
  | .ended _ _ => False
  | .neverStarted status =>
      ∃ fault, attempt.life = .refused fault ∧ status = (Outcome.refused fault).status

/-- The attempts of a table from one on are those to start some steps. -/
structure Begun (endings : Ending → Prop) (start : Nat) (started : List StartedStep)
    (table : List Attempt) : Prop where
  orderly : Orderly endings table
  within : start ≤ table.length
  begins : List.Forall₂ StartedStep.Begins started (table.drop start)

theorem StartedStep.Begins.of_ends {started : StartedStep} {attempt : Attempt} {pid : Pid}
    (begins : started.Begins attempt) (lived : attempt.life = .running pid) (ending : Ending) :
    started.Begins { attempt with life := .ended pid ending } := by
  unfold Begins at begins ⊢
  cases state : started.state with
  | running process =>
      rw [state] at begins
      rcases begins with running | ⟨other, ended⟩
      · obtain rfl : pid = process := by
          rw [lived] at running
          exact Life.running.inj running
        exact Or.inr ⟨ending, rfl⟩
      · rw [lived] at ended
        cases ended
  | ended process status =>
      rw [state] at begins
      exact begins.elim
  | neverStarted status =>
      rw [state] at begins
      obtain ⟨fault, refused, -⟩ := begins
      rw [lived] at refused
      cases refused

theorem Turns.begins {attempts turned : List Attempt} {started : List StartedStep} {pid : Pid}
    {ending : Ending} (turns : Turns (.running pid) (.ended pid ending) attempts turned)
    (begins : List.Forall₂ StartedStep.Begins started attempts) :
    List.Forall₂ StartedStep.Begins started turned := by
  induction turns generalizing started with
  | here lived =>
      cases begins with
      | cons first others => exact .cons (first.of_ends lived ending) others
  | later _ inductionHypothesis =>
      cases begins with
      | cons first others => exact .cons first (inductionHypothesis others)

namespace Begun

variable {endings : Ending → Prop} {start : Nat} {started : List StartedStep}
variable {table after : List Attempt}

theorem nothing (orderly : Orderly endings table) : Begun endings table.length [] table :=
  ⟨orderly, Nat.le_refl _, by rw [List.drop_length]; exact .nil⟩

theorem of_ages (begun : Begun endings start started table) (ages : Ages endings table after) :
    Begun endings start started after := by
  induction ages with
  | refl => exact begun
  | tail _ turned inductionHypothesis =>
      obtain ⟨pid, ending, told, turns⟩ := turned
      refine ⟨inductionHypothesis.orderly.of_moves (.ends told turns), ?_, ?_⟩
      · rw [turns.length_eq]
        exact inductionHypothesis.within
      · rcases turns.drop start with same | inside
        · rw [same]
          exact inductionHypothesis.begins
        · exact inside.begins inductionHypothesis.begins

theorem append (begun : Begun endings start started table) {attempt : Attempt} {step : StartedStep}
    (orderly : Orderly endings (table ++ [attempt])) (begins : step.Begins attempt) :
    Begun endings start (started ++ [step]) (table ++ [attempt]) := by
  refine ⟨orderly, ?_, ?_⟩
  · rw [List.length_append]
    exact Nat.le_trans begun.within (Nat.le_add_right _ _)
  · rw [List.drop_append_of_le_length begun.within]
    exact List.rel_append begun.begins (.cons begins .nil)

end Begun

/-! ## Starting a step -/

/-- An activity stopped because a notice of an error was refused. -/
def NoticeRefused (stop : Stop) (kernel : Kernel) : Prop :=
  ∃ text reason, stop = .breach (.noticeLost .errors reason) ∧
    kernel.calls.head? = some ⟨.write .errors text, .error reason⟩

/-- What is said of a step that was just started, or of why nothing is said. -/
def StepBegun (endings : Ending → Prop) (before : Kernel) (step : Step) (streams : Redirections) :
    Except Stop StartedStep → Kernel → Prop
  | .ok started, after =>
      after.plumbing = before.plumbing ∧
      outfitsOf after.attempts = outfitsOf before.attempts ++ [before.outfit step streams] ∧
      started.commandLine = step.commandLine ∧
      ∀ start earlier, Begun endings start earlier before.attempts →
        Begun endings start (earlier ++ [started]) after.attempts
  | .error stop, after => NoticeRefused stop after

theorem startStep_begins {endings : Ending → Prop} (step : Step) (streams : Redirections)
    (kernel : Kernel) :
    (Kernel.world endings).Ensures (fun _ _ => True) (startStep step streams).run
      (StepBegun endings kernel step streams) kernel := by
  unfold startStep
  rw [ensures_run_bind, ensures_run_ask]
  intro asked drifts
  refine ⟨trivial, ?_⟩
  have ages := Kernel.ages_of_drifts drifts
  have plumbing := Kernel.plumbing_of_drifts drifts
  have entered : ∀ life, outfitsOf (asked.enter
      { program := step.program
        arguments := step.arguments
        input := streams.input
        output := streams.output
        errors := streams.errors } life).attempts =
        outfitsOf kernel.attempts ++ [kernel.outfit step streams] := by
    intro life
    rw [← ages.outfits_eq, ← Kernel.outfit_of_plumbing plumbing]
    unfold outfitsOf Kernel.enter
    rw [List.map_append]
    rfl
  rintro given after ⟨answered, responds, rfl⟩
  rw [afterAction_ok]
  cases given with
  | ok pid =>
      obtain ⟨fresh, rfl⟩ := responds
      refine ⟨plumbing, entered _, rfl, fun start earlier begun => ?_⟩
      have begunAsked : Begun endings start earlier asked.attempts := begun.of_ages ages
      refine begunAsked.append ?_ (Or.inl rfl)
      exact begunAsked.orderly.of_moves (.starts rfl fresh)
  | error fault =>
      obtain ⟨raised, -, rfl⟩ := responds
      dsimp only
      rw [ensures_run_bind]
      unfold Action.complain Action.notice
      rw [ensures_run_bind, ensures_run_ask]
      intro told tellDrifts
      refine ⟨trivial, ?_⟩
      have tellAges := Kernel.ages_of_drifts tellDrifts
      have tellPlumbing := Kernel.plumbing_of_drifts tellDrifts
      rintro answer last ⟨answeredLast, same, rfl⟩
      obtain rfl : answeredLast = told := same
      rw [afterAction_ok]
      cases answer with
      | error reason =>
          exact ⟨_, reason, rfl, rfl⟩
      | ok _ =>
          refine ⟨tellPlumbing.trans plumbing, tellAges.outfits_eq.trans (entered _), rfl, ?_⟩
          intro start earlier begun
          refine Begun.of_ages ?_ tellAges
          have begunAsked : Begun endings start earlier asked.attempts := begun.of_ages ages
          have status := Outcome.status_refused step.program fault
          refine begunAsked.append ?_ ⟨fault, rfl, status⟩
          exact begunAsked.orderly.of_moves (.refuses rfl)

/-! ## Waiting for all steps -/

theorem StartedStep.Begins.uncollected {step : StartedStep} {attempt : Attempt} {pid : Pid}
    (begins : step.Begins attempt) (running : step.state = .running pid) :
    attempt.life.uncollected? = some pid := by
  unfold StartedStep.Begins at begins
  rw [running] at begins
  rcases begins with lived | ⟨_, lived⟩
  · rw [lived]
    rfl
  · rw [lived]
    rfl

theorem Life.Becomes.outcome? {before after : Life} (becomes : before.Becomes after)
    {outcome : Outcome} (known : before.outcome? = some outcome) :
    after.outcome? = some outcome := by
  cases becomes with
  | same => exact known
  | ends => cases known
  | isCollected => cases known
  | endsAndIsCollected => cases known

private theorem Grows.settled_first {before after : List Attempt} (grows : Grows before after)
    {start : Nat} {attempt : Attempt} {outcome : Outcome}
    (found : before[start]? = some attempt) (lived : attempt.life.outcome? = some outcome) :
    ∃ aged, after.drop start = aged :: after.drop (start + 1) ∧
      aged.life.outcome? = some outcome := by
  obtain ⟨aged, there, becomes⟩ := grows start attempt found
  refine ⟨aged, ?_, becomes.1.outcome? lived⟩
  obtain ⟨inside, rfl⟩ := List.getElem?_eq_some_iff.1 there
  exact List.drop_eq_getElem_cons inside

namespace Begun

variable {endings : Ending → Prop} {start : Nat} {started : List StartedStep} {step : StartedStep}
variable {table : List Attempt}

theorem first (begun : Begun endings start (step :: started) table) :
    ∃ attempt, table[start]? = some attempt ∧ step.Begins attempt ∧
      table.drop start = attempt :: table.drop (start + 1) := by
  obtain ⟨attempt, rest, begins, -, equal⟩ := List.forall₂_cons_left_iff.1 begun.begins
  have inside : start < table.length := by
    have length := congrArg List.length equal
    rw [List.length_drop, List.length_cons] at length
    omega
  rw [List.drop_eq_getElem_cons inside] at equal
  obtain ⟨same, -⟩ := List.cons.inj equal
  refine ⟨table[start], List.getElem?_eq_getElem inside, ?_, List.drop_eq_getElem_cons inside⟩
  rw [same]
  exact begins

theorem rest (begun : Begun endings start (step :: started) table) :
    Begun endings (start + 1) started table := by
  obtain ⟨attempt, found, begins, split⟩ := begun.first
  obtain ⟨inside, -⟩ := List.getElem?_eq_some_iff.1 found
  refine ⟨begun.orderly, inside, ?_⟩
  have all := begun.begins
  rw [split] at all
  exact (List.forall₂_cons.1 all).2

/-- Collecting the child of the first step settles its attempt and leaves the others. -/
theorem of_collecting (begun : Begun endings start (step :: started) table) {pid : Pid}
    {ending : Ending} {turned : List Attempt} (running : step.state = .running pid)
    (turns : Turns (.ended pid ending) (.collected pid ending) table turned) :
    Begun endings (start + 1) started turned ∧
      ∃ attempt, turned[start]? = some attempt ∧ attempt.life = .collected pid ending := by
  obtain ⟨attempt, found, begins, split⟩ := begun.first
  have others := begun.rest
  have uncollected := begins.uncollected running
  have distinct : (uncollectedOf (table.drop start)).Nodup :=
    begun.orderly.distinct.sublist ((List.drop_sublist start table).filterMap _)
  have after : ∃ aged, turned.drop start = aged :: table.drop (start + 1) ∧
      aged.life = .collected pid ending := by
    rcases turns.drop start with same | inside
    · -- The only child of this number would be left in the table.
      refine absurd ?_ (turns.not_mem_uncollected begun.orderly.distinct)
      have member : pid ∈ uncollectedOf (turned.drop start) := by
        rw [same, split]
        exact List.mem_filterMap.2 ⟨attempt, List.mem_cons_self, uncollected⟩
      exact ((List.drop_sublist start turned).filterMap _).subset member
    · rw [split] at inside distinct
      generalize turned.drop start = later at inside
      cases inside with
      | here lived => exact ⟨_, rfl, rfl⟩
      | later elsewhere =>
          refine absurd elsewhere.mem_uncollected ?_
          have begins : uncollectedOf (attempt :: table.drop (start + 1)) =
              pid :: uncollectedOf (table.drop (start + 1)) := by
            simp [uncollectedOf, uncollected]
          rw [begins] at distinct
          exact (List.nodup_cons.1 distinct).1
  obtain ⟨aged, dropped, lived⟩ := after
  have inside : start < turned.length := by
    rw [turns.length_eq]
    exact others.within
  rw [List.drop_eq_getElem_cons inside] at dropped
  obtain ⟨same, remaining⟩ := List.cons.inj dropped
  refine ⟨⟨begun.orderly.of_moves (.collects turns), inside, ?_⟩, aged, ?_, lived⟩
  · rw [remaining]
    exact others.begins
  · rw [List.getElem?_eq_getElem inside, same]

end Begun

/-- The wait for one of several steps failed: what came of the attempts before its own is known, and
of how its child ended nothing could be told. -/
structure BreaksAt (endings : Ending → Prop) (start place : Nat) (pid : Pid)
    (table : List Attempt) : Prop where
  settled : ∀ earlier < place, ∃ attempt outcome, table[start + earlier]? = some attempt ∧
    attempt.life.outcome? = some outcome
  collected : ∃ attempt ending, table[start + place]? = some attempt ∧
    attempt.life = .collected pid ending ∧ endings ending ∧ ending.hasName = false

theorem Ages.grows {endings : Ending → Prop} {before after : List Attempt}
    (ages : Ages endings before after) : Grows before after := by
  induction ages with
  | refl => exact .refl before
  | tail _ turned inductionHypothesis =>
      obtain ⟨pid, ending, occurs, turns⟩ := turned
      exact inductionHypothesis.trans (.of_turns (.ends pid ending) turns)

namespace BreaksAt

variable {endings : Ending → Prop} {start place : Nat} {pid : Pid} {table after : List Attempt}

theorem of_grows (breaks : BreaksAt endings start place pid table) (grows : Grows table after) :
    BreaksAt endings start place pid after where
  settled := by
    intro earlier before
    obtain ⟨attempt, outcome, found, known⟩ := breaks.settled earlier before
    obtain ⟨aged, there, becomes⟩ := grows _ attempt found
    exact ⟨aged, outcome, there, becomes.1.outcome? known⟩
  collected := by
    obtain ⟨attempt, ending, found, lived, occurs⟩ := breaks.collected
    obtain ⟨aged, there, becomes, -⟩ := grows _ attempt found
    refine ⟨aged, ending, there, ?_, occurs⟩
    rw [lived] at becomes
    generalize aged.life = life at becomes
    cases becomes
    rfl

/-- If what came of one more attempt before the others is known, it counts too. -/
theorem cons (breaks : BreaksAt endings (start + 1) place pid table) {attempt : Attempt}
    {outcome : Outcome} (found : table[start]? = some attempt)
    (known : attempt.life.outcome? = some outcome) :
    BreaksAt endings start (place + 1) pid table where
  settled := by
    intro earlier before
    cases earlier with
    | zero => exact ⟨attempt, outcome, found, known⟩
    | succ earlier =>
        have same : start + (earlier + 1) = start + 1 + earlier := by omega
        rw [same]
        exact breaks.settled earlier (Nat.lt_of_succ_lt_succ before)
  collected := by
    have same : start + (place + 1) = start + 1 + place := by omega
    rw [same]
    exact breaks.collected

/-- Where it can be told of every ending, no wait fails. -/
theorem not_telling (breaks : BreaksAt Ending.IsTold start place pid table) : False := by
  obtain ⟨attempt, ending, -, -, isTold, nameless⟩ := breaks.collected
  rw [isTold.hasName] at nameless
  cases nameless

end BreaksAt

/-- What waiting for steps comes to: what came of all attempts, from one on, is known, and so is the
status of the last; or the wait for one of the steps failed. -/
def WaitedFrom (endings : Ending → Prop) (start : Nat) :
    Except Stop (Option Int) → Kernel → Prop
  | .ok status, after =>
      status = statusOf (after.attempts.drop start) ∧ Settled (after.attempts.drop start)
  | .error stop, after => ∃ place pid, stop = .failure (.waitFailed pid.number) ∧
      BreaksAt endings start place pid after.attempts

theorem WaitedFrom.telling {start : Nat} {result : Except Stop (Option Int)} {after : Kernel}
    (waited : WaitedFrom Ending.IsTold start result after) :
    result = .ok (statusOf (after.attempts.drop start)) ∧
      Settled (after.attempts.drop start) := by
  cases result with
  | ok status =>
      obtain ⟨rfl, settled⟩ := waited
      exact ⟨rfl, settled⟩
  | error stop =>
      obtain ⟨place, pid, -, breaks⟩ := waited
      exact breaks.not_telling.elim

section Waiting

variable {endings : Ending → Prop}

private theorem waitForAll_goes_on {start : Nat} {rest : List StartedStep} {middle : Kernel}
    (others : (Kernel.world endings).Ensures (fun _ _ => True) (waitForAll rest)
      (fun result after => WaitedFrom endings (start + 1) result.1 after) middle)
    {attempt : Attempt} {outcome : Outcome} (found : middle.attempts[start]? = some attempt)
    (lived : attempt.life.outcome? = some outcome) (told : StartedStep) :
    (Kernel.world endings).Ensures (fun _ _ => True)
      (waitForAll rest >>= fun result =>
        pure (result.1.map fun last => some (last.getD outcome.status), told :: result.2))
      (fun result after => WaitedFrom endings start result.1 after) middle := by
  rw [ensures_bind]
  refine (others.and (ensures_later _ _)).mono ?_
  rintro ⟨waited, left⟩ last ⟨reached, later⟩
  have grows := Kernel.grows_of_later later
  cases waited with
  | error stop =>
      obtain ⟨place, pid, rfl, breaks⟩ := reached
      obtain ⟨aged, there, becomes⟩ := grows start attempt found
      exact ⟨place + 1, pid, rfl, breaks.cons there (becomes.1.outcome? lived)⟩
  | ok status =>
      obtain ⟨rfl, settled⟩ := reached
      obtain ⟨aged, split, known⟩ := grows.settled_first found lived
      refine ⟨?_, ?_⟩
      · rw [split, statusOf_cons known settled]
      · intro other member
        rw [split] at member
        rcases List.mem_cons.1 member with rfl | inside
        · exact ⟨outcome, known⟩
        · exact settled other inside

/-- Waiting for all steps settles their attempts and gives the status of the last, unless one of
their children ended in a way of which nothing can be told. -/
theorem waitForAll_waits {start : Nat} {started : List StartedStep} {kernel : Kernel}
    (begun : Begun endings start started kernel.attempts) :
    (Kernel.world endings).Ensures (fun _ _ => True) (waitForAll started)
      (fun result after => WaitedFrom endings start result.1 after) kernel := by
  induction started generalizing start kernel with
  | nil =>
      have empty : kernel.attempts.drop start = [] :=
        List.forall₂_nil_left_iff.1 begun.begins
      refine ⟨?_, ?_⟩
      · rw [empty]
        rfl
      · rw [empty]
        exact fun attempt member => absurd member List.not_mem_nil
  | cons step rest inductionHypothesis =>
      obtain ⟨attempt, found, begins, -⟩ := begun.first
      rw [waitForAll, ensures_bind]
      unfold StartedStep.wait
      cases state : step.state with
      | running pid =>
          dsimp only
          rw [ensures_bind]
          refine waitFor_ensures (fun _ _ => trivial) (fun _ _ => trivial) ?_ ?_
          · intro asked ending turned lingers turns
            have begunAsked := begun.of_ages lingers.ages
            obtain ⟨begunRest, first, firstFound, collected⟩ :=
              begunAsked.of_collecting state turns
            by_cases named : ending.hasName = true
            · rw [if_pos named]
              have known : first.life.outcome? = some (.ended ending) := by
                rw [collected]
                rfl
              have others : (Kernel.world endings).Ensures (fun _ _ => True) (waitForAll rest)
                  (fun result after => WaitedFrom endings (start + 1) result.1 after)
                  { asked with
                    attempts := turned
                    calls := ⟨.wait pid, Kernel.told ending⟩ :: asked.calls } :=
                inductionHypothesis begunRest
              have continued := waitForAll_goes_on others firstFound known
                { step with state := .ended pid ending.status }
              rw [Outcome.status_ended] at continued
              exact continued
            · rw [if_neg named]
              obtain ⟨ended, member, lived⟩ := turns.exists_mem
              have occurs := begunAsked.orderly.endings ended member pid ending lived
              refine ⟨0, pid, rfl, fun earlier before => absurd before (Nat.not_lt_zero _), ?_⟩
              exact ⟨first, ending, firstFound, collected, occurs, eq_false_of_ne_true named⟩
          · intro asked lingers absent
            exact absurd (List.mem_filterMap.2
              ⟨attempt, List.mem_of_getElem? found, begins.uncollected state⟩) absent
      | ended pid status =>
          unfold StartedStep.Begins at begins
          rw [state] at begins
          exact begins.elim
      | neverStarted status =>
          unfold StartedStep.Begins at begins
          rw [state] at begins
          obtain ⟨fault, lived, rfl⟩ := begins
          have known : attempt.life.outcome? = some (.refused fault) := by
            rw [lived]
            rfl
          exact waitForAll_goes_on (inductionHypothesis begun.rest) found known step

end Waiting

end JobControl
