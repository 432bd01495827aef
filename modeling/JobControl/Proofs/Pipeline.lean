import JobControl.Proofs.Starting
/-!
# Pipelines

Between two steps of a pipeline stands a pipe, made just before the first of them is started and
handed from one step to the next: a session holds, besides what it held before, at most the end
that the next step will read from, and holds nothing more once the last step was started or a pipe
could not be made.
-/

namespace JobControl

open Relation World

/-- What the steps of a pipeline are given when its pipes are numbered from one on: the first step
reads from `source`, the last writes where the session does, and all have `others`. -/
def pipelineOutfits (others : List Opened) (pipes : Nat) (source : Stream) :
    List Step → List Outfit
  | [] => []
  | [last] => [⟨last.program, last.arguments, source, .own, .own, others⟩]
  | step :: next :: rest =>
      ⟨step.program, step.arguments, source, .given (.pipeEnd (.writing pipes)), .own, others⟩ ::
        pipelineOutfits others (pipes + 1) (.given (.pipeEnd (.reading pipes))) (next :: rest)

/-! ## Handles -/

/-- The handles left when one is closed. -/
def closing (handle : Option Handle) (handles : List Held) : List Held :=
  match handle with
  | none => handles
  | some handle => handles.filter fun held => held.handle ≠ handle

/-- Besides what was held before, the handle to read from next is held, and no child gets it but for
a stream. -/
def Holds (base : List Held) (source : Option Handle) (handles : List Held) : Prop :=
  match source with
  | none => handles = base
  | some handle =>
      ∃ opened, handles = base ++ [⟨handle, opened, .closed⟩] ∧
        ∀ held ∈ base, held.handle ≠ handle

private theorem filter_handles_of_ne {handle : Handle} {handles : List Held}
    (absent : ∀ held ∈ handles, held.handle ≠ handle) :
    handles.filter (fun held => held.handle ≠ handle) = handles :=
  List.filter_eq_self.2 fun held member => decide_eq_true (absent held member)

private theorem find?_handles_of_ne {handle : Handle} {handles : List Held}
    (absent : ∀ held ∈ handles, held.handle ≠ handle) :
    handles.find? (fun held => held.handle = handle) = none :=
  List.find?_eq_none.2 fun held member => by simpa using absent held member

/-- Handles that are closed in children are not passed on. -/
theorem passedOn_append {added : List Held} (closed : ∀ new ∈ added, new.onExec = .closed)
    (handles : List Held) : passedOn (handles ++ added) = passedOn handles := by
  have none : added.filter (fun held => held.onExec = .passedOn) = [] :=
    List.filter_eq_nil_iff.2 fun new member => by simp [closed new member]
  unfold passedOn
  rw [List.filter_append, none, List.append_nil]

private theorem Kernel.absent_of_holds {kernel : Kernel} {handle : Handle}
    (unheld : kernel.holds handle = false) : ∀ held ∈ kernel.handles, held.handle ≠ handle := by
  intro held member equal
  have holds : kernel.holds handle = true :=
    List.any_eq_true.2 ⟨held, member, decide_eq_true equal⟩
  rw [unheld] at holds
  cases holds

private theorem Kernel.stream_of_last {kernel : Kernel} {held : List Held} {handle : Handle}
    {opened : Opened} {onExec : OnExec}
    (handles : kernel.handles = held ++ [⟨handle, opened, onExec⟩])
    (absent : ∀ other ∈ held, other.handle ≠ handle) :
    kernel.stream (some handle) = .given opened := by
  have found : kernel.opened? handle = some opened := by
    unfold Kernel.opened?
    rw [handles, List.find?_append, find?_handles_of_ne absent]
    simp
  unfold Kernel.stream
  dsimp only
  rw [found]

namespace Holds

variable {base handles : List Held} {source : Option Handle}

private theorem base_mem (holds : Holds base source handles) :
    ∀ held ∈ base, held ∈ handles := by
  intro held member
  cases source with
  | none =>
      obtain rfl : handles = base := holds
      exact member
  | some handle =>
      obtain ⟨opened, rfl, -⟩ := holds
      exact List.mem_append_left _ member

private theorem passedOn_eq (holds : Holds base source handles) :
    passedOn handles = passedOn base := by
  cases source with
  | none =>
      obtain rfl : handles = base := holds
      rfl
  | some handle =>
      obtain ⟨opened, rfl, -⟩ := holds
      exact passedOn_append (by simp) base

private theorem closing_append (holds : Holds base source handles) {added : List Held}
    (fresh : ∀ new ∈ added, ∀ held ∈ handles, held.handle ≠ new.handle) :
    closing source (handles ++ added) = base ++ added := by
  cases source with
  | none =>
      obtain rfl : handles = base := holds
      rfl
  | some handle =>
      obtain ⟨opened, rfl, absent⟩ := holds
      have others : ∀ new ∈ added, new.handle ≠ handle := by
        intro new member equal
        refine fresh new member ⟨handle, opened, .closed⟩ ?_ equal.symm
        exact List.mem_append_right _ List.mem_cons_self
      unfold closing
      dsimp only
      rw [List.filter_append, List.filter_append, filter_handles_of_ne absent,
        filter_handles_of_ne others, List.filter_cons_of_neg (by simp), List.filter_nil,
        List.append_nil]

private theorem closing_eq (holds : Holds base source handles) : closing source handles = base := by
  have nothing : ∀ new ∈ ([] : List Held), ∀ held ∈ handles, held.handle ≠ new.handle :=
    fun new member => absurd member List.not_mem_nil
  have closed := holds.closing_append nothing
  rwa [List.append_nil, List.append_nil] at closed

/-- When the ends of a new pipe have been given to a step, the end to read from is left. -/
theorem hand_over (holds : Holds base source handles) {readEnd writeEnd : Handle}
    {reading writing : Opened} {onExec : OnExec}
    (readFresh : ∀ held ∈ handles, held.handle ≠ readEnd)
    (writeFresh : ∀ held ∈ handles, held.handle ≠ writeEnd) (apart : readEnd ≠ writeEnd) :
    closing (some writeEnd) (closing source
        (handles ++ [⟨readEnd, reading, onExec⟩, ⟨writeEnd, writing, onExec⟩])) =
      base ++ [⟨readEnd, reading, onExec⟩] := by
  have fresh : ∀ new ∈ [Held.mk readEnd reading onExec, ⟨writeEnd, writing, onExec⟩],
      ∀ held ∈ handles, held.handle ≠ new.handle := by
    intro new member
    rcases List.mem_cons.1 member with rfl | second
    · exact readFresh
    · rw [List.mem_singleton.1 second]
      exact writeFresh
  have absent : ∀ held ∈ base, held.handle ≠ writeEnd :=
    fun held member => writeFresh held (holds.base_mem held member)
  rw [holds.closing_append fresh]
  unfold closing
  dsimp only
  rw [List.filter_append, filter_handles_of_ne absent,
    List.filter_cons_of_pos (by simpa using apart), List.filter_cons_of_neg (by simp),
    List.filter_nil]

private theorem stream_append {kernel after : Kernel} (holds : Holds base source kernel.handles)
    {added : List Held} (handles : after.handles = kernel.handles ++ added) :
    after.stream source = kernel.stream source := by
  cases source with
  | none => rfl
  | some handle =>
      obtain ⟨opened, held, absent⟩ := holds
      unfold Kernel.stream Kernel.opened?
      dsimp only
      rw [handles, List.find?_append, held, List.find?_append, find?_handles_of_ne absent]
      simp

end Holds

private theorem Holds.outfit_of_pipe {base : List Held} {source : Option Handle}
    {kernel piped : Kernel} (holds : Holds base source kernel.handles)
    {readEnd writeEnd : Handle}
    (handles : piped.handles = (kernel.pipe readEnd writeEnd .closed).handles)
    (fresh : ∀ held ∈ kernel.handles, held.handle ≠ writeEnd) (apart : readEnd ≠ writeEnd)
    (step : Step) :
    piped.outfit step { input := source, output := some writeEnd } =
      ⟨step.program, step.arguments, kernel.stream source,
        .given (.pipeEnd (.writing kernel.pipes)), .own, passedOn base⟩ := by
  have absent : ∀ held ∈ kernel.handles ++ [⟨readEnd, .pipeEnd (.reading kernel.pipes), .closed⟩],
      held.handle ≠ writeEnd := by
    intro held member
    rcases List.mem_append.1 member with earlier | last
    · exact fresh held earlier
    · rw [List.mem_singleton.1 last]
      exact apart
  have last : piped.handles =
      kernel.handles ++ [⟨readEnd, .pipeEnd (.reading kernel.pipes), .closed⟩] ++
        [⟨writeEnd, .pipeEnd (.writing kernel.pipes), .closed⟩] := by
    rw [handles, List.append_assoc]
    rfl
  have others : passedOn piped.handles = passedOn base := by
    rw [handles]
    exact (passedOn_append (by simp) kernel.handles).trans holds.passedOn_eq
  unfold Kernel.outfit
  dsimp only
  rw [holds.stream_append handles, Kernel.stream_of_last last absent, others]
  rfl

private theorem closeHandle_closes {endings : Ending → Prop} (handle : Option Handle)
    (kernel : Kernel) :
    (Kernel.world endings).Ensures (fun _ _ => True) (Redirections.closeHandle handle)
      (fun _ after => Ages endings kernel.attempts after.attempts ∧
        after.plumbing = (closing handle kernel.handles, kernel.pipes, kernel.pipeResults))
      kernel := by
  cases handle with
  | none =>
      exact ⟨ReflTransGen.refl, rfl⟩
  | some handle =>
      unfold Redirections.closeHandle
      rw [ensures_ask]
      intro asked drifts
      refine ⟨trivial, ?_⟩
      rintro given after ⟨answered, responds, rfl⟩
      obtain rfl : answered = asked.drop handle := responds
      have same := Kernel.plumbing_of_drifts drifts
      have ages : Ages endings kernel.attempts asked.attempts := Kernel.ages_of_drifts drifts
      refine ⟨ages, ?_⟩
      have handles : asked.handles = kernel.handles := congrArg Prod.fst same
      have others := congrArg Prod.snd same
      refine Prod.ext ?_ others
      change asked.handles.filter _ = kernel.handles.filter _
      rw [handles]

/-- Waiting for steps starts none and opens and closes nothing. -/
theorem waitForAll_keeps {endings : Ending → Prop} (started : List StartedStep) (kernel : Kernel) :
    (Kernel.world endings).Ensures (fun _ _ => True) (waitForAll started)
      (fun _ after => kernel.attempts.length ≤ after.attempts.length ∧
        outfitsOf after.attempts = outfitsOf kernel.attempts ∧
        after.plumbing = kernel.plumbing) kernel := by
  let holds : Kernel → Prop := fun after =>
    kernel.attempts.length ≤ after.attempts.length ∧
      outfitsOf after.attempts = outfitsOf kernel.attempts ∧ after.plumbing = kernel.plumbing
  have initially : holds kernel := ⟨Nat.le_refl _, rfl, rfl⟩
  refine (Program.Within.ensures ?_ (fun _ _ _ _ => trivial) ?_
    (waitForAll_onlyWaits started) initially).mono fun _ _ reached => reached.2
  · rintro before after stirs ⟨length, outfits, plumbing⟩
    cases stirs with
    | childEnds told turns =>
        refine ⟨?_, turns.outfits_eq.trans outfits, plumbing⟩
        rw [turns.length_eq]
        exact length
    | alarm => exact ⟨length, outfits, plumbing⟩
  · rintro call before given after waits ⟨answered, responds, rfl⟩ ⟨length, outfits, plumbing⟩
    unfold Call.isOfWaits at waits
    split at waits
    · obtain rfl := responds
      exact ⟨length, outfits, plumbing⟩
    · rcases responds with ⟨ending, turned, turns, -, rfl⟩ | ⟨-, -, rfl⟩ | ⟨-, -, rfl⟩
      · refine ⟨?_, turns.outfits_eq.trans outfits, plumbing⟩
        rw [turns.length_eq]
        exact length
      · exact ⟨length, outfits, plumbing⟩
      · exact ⟨length, outfits, plumbing⟩
    · cases waits

/-! ## Starting a pipeline -/

/-- How a pipeline is given up of which a pipe could not be made: all its steps have been waited
for, or the wait for one of them failed. -/
inductive GivesUp (endings : Ending → Prop) (start : Nat) (reason : Errno)
    (table : List Attempt) : Failure → Prop
  | cleared : Settled (table.drop start) → GivesUp endings start reason table (.pipe reason)
  | broken {place : Nat} {pid : Pid} :
      BreaksAt endings start place pid table →
      GivesUp endings start reason table (.waitFailed pid.number)

/-- Where it can be told of every ending, all steps have been waited for. -/
theorem GivesUp.telling {start : Nat} {reason : Errno} {table : List Attempt} {failure : Failure}
    (givesUp : GivesUp Ending.IsTold start reason table failure) :
    failure = .pipe reason ∧ Settled (table.drop start) := by
  cases givesUp with
  | cleared settled => exact ⟨rfl, settled⟩
  | broken breaks => exact breaks.not_telling.elim

theorem GivesUp.of_ages {endings : Ending → Prop} {start : Nat} {reason : Errno}
    {table aged : List Attempt} {failure : Failure}
    (givesUp : GivesUp endings start reason table failure) (ages : Ages endings table aged) :
    GivesUp endings start reason aged failure := by
  cases givesUp with
  | cleared settled =>
      apply GivesUp.cleared
      rwa [settled.of_ages (fun turns => turns.drop _) ages]
  | broken breaks => exact .broken (breaks.of_grows ages.grows)

/-- What a pipeline that was started leaves, or one of which a pipe could not be made: `base` is
held, and the attempts from `start` on are those of the pipeline. -/
def PipelineBegun (endings : Ending → Prop) (before : Kernel) (base : List Held)
    (source : Option Handle)
    (start : Nat) (started : List StartedStep) (steps : List Step) :
    Except Stop (List StartedStep) → Kernel → Prop
  | .ok result, after =>
      after.plumbing =
        (base, before.pipes + (steps.length - 1),
          List.replicate (steps.length - 1) (.ok ()) ++ before.pipeResults) ∧
      outfitsOf after.attempts = outfitsOf before.attempts ++
        pipelineOutfits (passedOn base) before.pipes (before.stream source) steps ∧
      Begun endings start result after.attempts ∧
      result.map StartedStep.commandLine =
        started.map StartedStep.commandLine ++ steps.map Step.commandLine
  | .error (.failure failure), after =>
      ∃ reason made, made + 1 < steps.length ∧
        after.plumbing =
          (base, before.pipes + made,
            .error reason :: (List.replicate made (.ok ()) ++ before.pipeResults)) ∧
        outfitsOf after.attempts = outfitsOf before.attempts ++
          (pipelineOutfits (passedOn base) before.pipes (before.stream source) steps).take made ∧
        start ≤ after.attempts.length ∧ GivesUp endings start reason after.attempts failure
  | .error (.breach breach), after => NoticeRefused (.breach breach) after

/-- What is left when a step that is not the last has been started: besides `base` only the end
that the next step reads from is held. -/
structure StepJoined (endings : Ending → Prop) (before : Kernel) (base : List Held)
    (source : Option Handle)
    (readEnd : Handle) (step : Step) (told : StartedStep) (after : Kernel) : Prop where
  handles : after.handles = base ++ [⟨readEnd, .pipeEnd (.reading before.pipes), .closed⟩]
  unheld : ∀ held ∈ base, held.handle ≠ readEnd
  pipes : after.pipes = before.pipes + 1
  results : after.pipeResults = .ok () :: before.pipeResults
  outfits : outfitsOf after.attempts = outfitsOf before.attempts ++
    [⟨step.program, step.arguments, before.stream source,
      .given (.pipeEnd (.writing before.pipes)), .own, passedOn base⟩]
  line : told.commandLine = step.commandLine
  begun : ∀ start earlier, Begun endings start earlier before.attempts →
    Begun endings start (earlier ++ [told]) after.attempts

section Begun

variable {endings : Ending → Prop} {base : List Held} {source : Option Handle} {start : Nat}
  {started : List StartedStep} {kernel : Kernel}

namespace PipelineBegun

variable {steps : List Step} {outcome : Except Stop (List StartedStep)} {after : Kernel}

theorem of_drifts {asked : Kernel} (drifts : (Kernel.world endings).Drifts kernel asked)
    (begun : PipelineBegun endings asked base source start started steps outcome after) :
    PipelineBegun endings kernel base source start started steps outcome after := by
  have plumbing := Kernel.plumbing_of_drifts drifts
  have outfits := (Kernel.ages_of_drifts drifts).outfits_eq
  have pipes : asked.pipes = kernel.pipes := congrArg (fun all => all.2.1) plumbing
  have results : asked.pipeResults = kernel.pipeResults := congrArg (fun all => all.2.2) plumbing
  have stream := Kernel.stream_of_plumbing plumbing source
  unfold PipelineBegun at begun ⊢
  rw [pipes, results, outfits, stream] at begun
  exact begun

theorem cons {middle : Kernel} {readEnd : Handle} {told : StartedStep} {step next : Step}
    {rest : List Step} (joined : StepJoined endings kernel base source readEnd step told middle)
    (begun : PipelineBegun endings middle base (some readEnd) start (started ++ [told])
      (next :: rest)
      outcome after) :
    PipelineBegun endings kernel base source start started (step :: next :: rest) outcome
      after := by
  have replicated : ∀ count,
      List.replicate count (Except.ok () : Except Errno Unit) ++ middle.pipeResults =
        List.replicate (count + 1) (.ok ()) ++ kernel.pipeResults := by
    intro count
    rw [joined.results, List.replicate_succ', List.append_assoc]
    rfl
  have stream := Kernel.stream_of_last joined.handles joined.unheld
  rcases outcome with (failure | breach) | result
  · obtain ⟨reason, made, fewer, plumbing, enough, within, givesUp⟩ := begun
    refine ⟨reason, made + 1, Nat.succ_lt_succ fewer, ?_, ?_, within, givesUp⟩
    · rw [plumbing, replicated, joined.pipes]
      congr 2
      omega
    · rw [enough, joined.outfits, joined.pipes, stream, List.append_assoc]
      rfl
  · exact begun
  · obtain ⟨plumbing, all, begins, lines⟩ := begun
    refine ⟨?_, ?_, begins, ?_⟩
    · rw [plumbing, replicated, joined.pipes]
      simp only [List.length_cons, Nat.add_sub_cancel]
      congr 2
      omega
    · rw [all, joined.outfits, joined.pipes, stream, List.append_assoc]
      rfl
    · rw [lines, List.map_append, List.append_assoc]
      simp only [List.map_cons, List.map_nil, joined.line, List.singleton_append]

end PipelineBegun

/-- The last step reads from the source and writes where the session does. -/
theorem startPipeline_begins_last (step : Step) (holds : Holds base source kernel.handles)
    (begun : Begun endings start started kernel.attempts) :
    (Kernel.world endings).Ensures (fun _ _ => True) (startPipeline source started [step]).run
      (PipelineBegun endings kernel base source start started [step]) kernel := by
  rw [startPipeline, ensures_run_bind]
  refine (startStep_begins step { input := source } kernel).mono ?_
  rintro (stop | told) after begins
  · obtain ⟨text, reason, rfl, logged⟩ := begins
    exact ⟨text, reason, rfl, logged⟩
  · obtain ⟨plumbing, outfits, line, entered⟩ := begins
    rw [afterAction_ok, ensures_run_bind, ensures_run_lift]
    have handles : after.handles = kernel.handles := congrArg Prod.fst plumbing
    refine (closeHandle_closes source after).mono ?_
    rintro _ last ⟨ages, closed⟩
    refine ⟨?_, ?_, ?_, ?_⟩
    · rw [closed, handles, holds.closing_eq]
      exact congrArg (Prod.mk base) (congrArg Prod.snd plumbing)
    · have others := holds.passedOn_eq
      rw [ages.outfits_eq, outfits]
      unfold Kernel.outfit
      rw [others]
      rfl
    · exact (entered start started begun).of_ages ages
    · rw [List.map_append, List.map_singleton, line]
      rfl

/-- When a pipe cannot be made, the source is closed and the steps started before are waited for. -/
theorem giveUp_waits (reason : Errno) (holds : Holds base source kernel.handles)
    (begun : Begun endings start started kernel.attempts) :
    (Kernel.world endings).Ensures (fun _ _ => True) (do
        Redirections.closeHandle source
        let (waited, _) ← (waitForAll started :
          Action (Except Stop (Option Int) × List StartedStep))
        match waited with
        | .error stop => throw stop
        | .ok _ => Action.fail (.pipe reason) : Action (List StartedStep)).run
      (fun outcome after => ∃ failure, outcome = .error (.failure failure) ∧
        after.plumbing = (base, kernel.pipes, kernel.pipeResults) ∧
        outfitsOf after.attempts = outfitsOf kernel.attempts ∧
        start ≤ after.attempts.length ∧ GivesUp endings start reason after.attempts failure)
      kernel := by
  rw [ensures_run_bind, ensures_run_lift]
  refine (closeHandle_closes source kernel).mono ?_
  rintro _ closed ⟨ages, plumbing⟩
  rw [afterAction_ok, ensures_run_bind, ensures_run_lift]
  have begunClosed := begun.of_ages ages
  refine ((waitForAll_waits begunClosed).and (waitForAll_keeps started closed)).mono ?_
  rintro ⟨waited, rest⟩ last ⟨reached, within, outfits, kept⟩
  have plumbed : last.plumbing = (base, kernel.pipes, kernel.pipeResults) := by
    rw [kept, plumbing, holds.closing_eq]
  have same := outfits.trans ages.outfits_eq
  have far := Nat.le_trans begunClosed.within within
  rw [afterAction_ok]
  cases waited with
  | ok status => exact ⟨.pipe reason, rfl, plumbed, same, far, .cleared reached.2⟩
  | error stop =>
      obtain ⟨place, pid, rfl, breaks⟩ := reached
      exact ⟨.waitFailed pid.number, rfl, plumbed, same, far, .broken breaks⟩

/-- A step is started between the source and a new pipe; the session keeps of them only the end to
read from, with which it goes on. -/
theorem startStep_joins {α : Type} {readEnd writeEnd : Handle} (step : Step)
    (holds : Holds base source kernel.handles) (readFresh : kernel.holds readEnd = false)
    (writeFresh : kernel.holds writeEnd = false) (apart : readEnd ≠ writeEnd)
    {next : StartedStep → Action α} {post : Except Stop α → Kernel → Prop}
    (lost : ∀ stop after, NoticeRefused stop after → post (.error stop) after)
    (goesOn : ∀ told joined, StepJoined endings kernel base source readEnd step told joined →
      (Kernel.world endings).Ensures (fun _ _ => True) (next told).run post joined) :
    (Kernel.world endings).Ensures (fun _ _ => True) (do
        let told ← startStep step { input := source, output := some writeEnd }
        Redirections.closeHandle source
        Action.ask (.close writeEnd)
        next told : Action α).run post
      { kernel.pipe readEnd writeEnd .closed with
        calls := ⟨.makePipe .closed, .ok (readEnd, writeEnd)⟩ :: kernel.calls } := by
  rw [ensures_run_bind]
  refine Ensures.mono (startStep_begins step _ _) ?_
  rintro (stop | told) entered begins
  · exact lost stop entered begins
  · obtain ⟨enteredPlumbing, outfits, line, enters⟩ := begins
    rw [afterAction_ok, ensures_run_bind, ensures_run_lift]
    refine (closeHandle_closes source entered).mono ?_
    rintro _ closed ⟨closedAges, closedPlumbing⟩
    rw [afterAction_ok, ensures_run_bind]
    change World.Ensures _ _
      (liftM (Redirections.closeHandle (some writeEnd)) : Action Unit).run _ _
    rw [ensures_run_lift]
    refine (closeHandle_closes (some writeEnd) closed).mono ?_
    rintro _ handed ⟨handedAges, handedPlumbing⟩
    rw [afterAction_ok]
    have readAbsent := Kernel.absent_of_holds readFresh
    have writeAbsent := Kernel.absent_of_holds writeFresh
    have enteredHandles : entered.handles = kernel.handles ++
        [⟨readEnd, .pipeEnd (.reading kernel.pipes), .closed⟩,
          ⟨writeEnd, .pipeEnd (.writing kernel.pipes), .closed⟩] :=
      congrArg Prod.fst enteredPlumbing
    have closedHandles : closed.handles = closing source entered.handles :=
      congrArg Prod.fst closedPlumbing
    have handedHandles : handed.handles = closing (some writeEnd) closed.handles :=
      congrArg Prod.fst handedPlumbing
    have others : (handed.pipes, handed.pipeResults) =
        (kernel.pipes + 1, .ok () :: kernel.pipeResults) :=
      (congrArg Prod.snd handedPlumbing).trans
        ((congrArg Prod.snd closedPlumbing).trans (congrArg Prod.snd enteredPlumbing))
    refine goesOn told handed ⟨?_, ?_, congrArg Prod.fst others, congrArg Prod.snd others, ?_,
      line, ?_⟩
    · rw [handedHandles, closedHandles, enteredHandles]
      exact holds.hand_over readAbsent writeAbsent apart
    · exact fun held member => readAbsent held (holds.base_mem held member)
    · rw [handedAges.outfits_eq, closedAges.outfits_eq, outfits]
      have given := holds.outfit_of_pipe rfl writeAbsent apart step
      exact congrArg (fun last => outfitsOf kernel.attempts ++ [last]) given
    · exact fun start earlier begun =>
        ((enters start earlier begun).of_ages closedAges).of_ages handedAges

end Begun

theorem startPipeline_begins {endings : Ending → Prop} {base : List Held} {source : Option Handle}
    {start : Nat} {started : List StartedStep} {steps : List Step} {kernel : Kernel}
    (nonempty : steps ≠ []) (holds : Holds base source kernel.handles)
    (begun : Begun endings start started kernel.attempts) :
    (Kernel.world endings).Ensures (fun _ _ => True) (startPipeline source started steps).run
      (PipelineBegun endings kernel base source start started steps) kernel := by
  induction steps generalizing source started kernel with
  | nil => exact absurd rfl nonempty
  | cons step others inductionHypothesis =>
      cases others with
      | nil => exact startPipeline_begins_last step holds begun
      | cons next rest =>
          rw [startPipeline, ensures_run_bind, ensures_run_ask]
          intro asked drifts
          refine ⟨trivial, ?_⟩
          have handles : asked.handles = kernel.handles :=
            congrArg Prod.fst (Kernel.plumbing_of_drifts drifts)
          have holdsAsked : Holds base source asked.handles := handles ▸ holds
          have begunAsked := begun.of_ages (Kernel.ages_of_drifts drifts)
          rintro given after ⟨answered, responds, rfl⟩
          rw [afterAction_ok]
          cases given with
          | error reason =>
              obtain rfl : answered = asked := responds
              refine Ensures.mono (giveUp_waits reason holdsAsked begunAsked) ?_
              rintro outcome last ⟨failure, rfl, plumbing, outfits, within, givesUp⟩
              refine PipelineBegun.of_drifts drifts ?_
              refine ⟨reason, 0, Nat.succ_lt_succ (Nat.succ_pos _), plumbing, ?_, within, givesUp⟩
              rw [outfits, List.take_zero, List.append_nil]
          | ok ends =>
              obtain ⟨readEnd, writeEnd⟩ := ends
              obtain ⟨readFresh, writeFresh, apart, rfl⟩ := responds
              refine startStep_joins step holdsAsked readFresh writeFresh apart ?_ ?_
              · rintro stop last ⟨text, reason, rfl, logged⟩
                exact ⟨text, reason, rfl, logged⟩
              · intro told joined step_joined
                have holdsJoined : Holds base (some readEnd) joined.handles :=
                  ⟨_, step_joined.handles, step_joined.unheld⟩
                have begunJoined := step_joined.begun start started begunAsked
                refine (inductionHypothesis (List.cons_ne_nil next rest) holdsJoined
                  begunJoined).mono ?_
                exact fun outcome last reached =>
                  (PipelineBegun.cons step_joined reached).of_drifts drifts

end JobControl
