import JobControl.Proofs.Redirecting.Openings
/-!
# Opening the files of a job

Two files of one name are refused before any is opened; otherwise the files are opened in the order
input, output, errors, and those that are open are closed again when one is refused.  What is there
is kept in every case, and what is written to the streams of the job comes after what their files
held.
-/

namespace JobControl

variable {α β σ : Type}

/-! ## Programs that are run on a system -/

theorem Program.run_bind (answer : (call : Call) → σ → call.Answer × σ) (program : Program α)
    (next : α → Program β) (state : σ) :
    (program >>= next).run answer state =
      (next (program.run answer state).1).run answer (program.run answer state).2 := by
  induction program generalizing state with
  | done result => rfl
  | step call rest inductionHypothesis =>
      exact inductionHypothesis (answer call state).1 (answer call state).2

/-- Runs an action on a system: its outcome, and the system after it. -/
def Action.runOn (answer : (call : Call) → σ → call.Answer × σ) (action : Action α) (state : σ) :
    Except Stop α × σ :=
  action.run.run answer state

section RunOn

variable {answer : (call : Call) → σ → call.Answer × σ} {action : Action α} {state after : σ}

private theorem Action.runOn_bind_of_ok {result : α}
    (comes : action.runOn answer state = (.ok result, after)) (next : α → Action β) :
    (action >>= next).runOn answer state = (next result).runOn answer after := by
  unfold runOn at comes ⊢
  rw [ExceptT.run_bind, Program.run_bind, comes]

private theorem Action.runOn_bind_of_error {stop : Stop}
    (comes : action.runOn answer state = (.error stop, after)) (next : α → Action β) :
    (action >>= next).runOn answer state = (.error stop, after) := by
  unfold runOn at comes ⊢
  rw [ExceptT.run_bind, Program.run_bind, comes]
  rfl

private theorem Action.runOn_pure (result : α) :
    (pure result : Action α).runOn answer state = (.ok result, state) :=
  rfl

private theorem Action.runOn_fail (failure : Failure) :
    (Action.fail failure : Action α).runOn answer state = (.error (.failure failure), state) :=
  rfl

private theorem Action.runOn_ask (call : Call) :
    (Action.ask call).runOn answer state = (.ok (answer call state).1, (answer call state).2) :=
  rfl

end RunOn

namespace Redirections

/-! ## Opening as an action -/

/-- Opening a named file does what the machine answers, and stops with the failure of a refusal. -/
theorem runOn_opening (refuses : Machine → Call → Option AccessFault) (machine : Machine)
    (naming : Naming) :
    (naming.stream.opening naming.path).runOn (Machine.answerOrRefuse refuses) machine =
      ((naming.openOn refuses machine).1.mapError fun fault => .failure (naming.failure fault),
        (naming.openOn refuses machine).2) := by
  obtain ⟨stream, path⟩ := naming
  cases stream with
  | input =>
      unfold Stream.opening openInput
      rw [Action.runOn_bind_of_ok (Action.runOn_ask _)]
      simp only [Naming.openOn]
      rcases machine.answerOrRefuse refuses (.openInput path) with ⟨fault | handle, after⟩
      · cases fault with
        | refused reason => cases reason <;> rfl
        | nulInName | notText => rfl
      · rfl
  | output | errors =>
      unfold Stream.opening openOutput
      rw [Action.runOn_bind_of_ok (Action.runOn_ask _)]
      simp only [Naming.openOn]
      rcases machine.answerOrRefuse refuses (.openOutput path .ownerOnly) with
        ⟨fault | handle, after⟩
      · rfl
      · rfl

/-- What comes of opening the file of a stream, if one is named; the files that were opened before
have been closed after a refusal. -/
inductive StreamOpens (refuses : Machine → Call → Option AccessFault) (stream : Stream)
    (before : Machine) : Option String → Except Stop (Option Handle) × Machine → Prop
  | unnamed : StreamOpens refuses stream before none (.ok none, before)
  | opened {path : String} {handle : Handle} {after : Machine} :
      Naming.openOn refuses before ⟨stream, path⟩ = (.ok handle, after) →
      StreamOpens refuses stream before (some path) (.ok (some handle), after)
  | refused {path : String} {fault : AccessFault} {after : Machine} :
      Naming.openOn refuses before ⟨stream, path⟩ = (.error fault, before) →
      after.tree = before.tree →
      StreamOpens refuses stream before (some path)
        (.error (.failure (Naming.failure ⟨stream, path⟩ fault)), after)

private theorem openNamed_streamOpens (refuses : Machine → Call → Option AccessFault)
    (stream : Stream) (machine : Machine) (path? : Option String) :
    StreamOpens refuses stream machine path?
      ((openNamed stream.opening path?).runOn (Machine.answerOrRefuse refuses) machine) := by
  cases path? with
  | none => exact .unnamed
  | some path =>
      have runs := runOn_opening refuses machine ⟨stream, path⟩
      cases given : Naming.openOn refuses machine ⟨stream, path⟩ with
      | mk outcome after =>
          rw [given] at runs
          unfold openNamed
          cases outcome with
          | ok handle =>
              rw [Action.runOn_bind_of_ok runs, Action.runOn_pure]
              exact .opened given
          | error fault =>
              obtain rfl := (Opening.of_openOn given).refused_eq
              rw [Action.runOn_bind_of_error runs]
              exact .refused given rfl

private theorem tree_closeAll (refuses : Machine → Call → Option AccessFault)
    (handles : List (Option Handle)) (machine : Machine) :
    ((handles.forM closeHandle).run (Machine.answerOrRefuse refuses) machine).2.tree =
      machine.tree := by
  induction handles generalizing machine with
  | nil => rfl
  | cons handle rest inductionHypothesis =>
      have first : (handle :: rest).forM closeHandle =
          closeHandle handle >>= fun _ => rest.forM closeHandle := rfl
      rw [first, Program.run_bind, inductionHypothesis]
      cases handle <;> rfl

section ClosingOnStop

variable {answer : (call : Call) → σ → call.Answer × σ} {action : Action α} {state after : σ}

private theorem runOn_closingOnStop_of_ok {result : α}
    (comes : action.runOn answer state = (.ok result, after)) (held : List (Option Handle)) :
    (closingOnStop held action).runOn answer state = (.ok result, after) := by
  unfold Action.runOn closingOnStop at *
  rw [ExceptT.run_mk, Program.run_bind, comes]
  rfl

private theorem runOn_closingOnStop_of_error {stop : Stop}
    (comes : action.runOn answer state = (.error stop, after)) (held : List (Option Handle)) :
    (closingOnStop held action).runOn answer state =
      (.error stop, ((held.forM closeHandle).run answer after).2) := by
  unfold Action.runOn closingOnStop at *
  rw [ExceptT.run_mk, Program.run_bind, comes]
  exact Program.run_bind answer _ _ after

end ClosingOnStop

theorem StreamOpens.closingOnStop {refuses : Machine → Call → Option AccessFault} {stream : Stream}
    {machine : Machine} {path? : Option String} {action : Action (Option Handle)}
    (opens : StreamOpens refuses stream machine path?
      (action.runOn (Machine.answerOrRefuse refuses) machine)) (held : List (Option Handle)) :
    StreamOpens refuses stream machine path?
      ((closingOnStop held action).runOn (Machine.answerOrRefuse refuses) machine) := by
  generalize comes : action.runOn (Machine.answerOrRefuse refuses) machine = given at opens
  obtain ⟨outcome, after⟩ := given
  cases opens with
  | unnamed =>
      rw [runOn_closingOnStop_of_ok comes]
      exact .unnamed
  | opened given =>
      rw [runOn_closingOnStop_of_ok comes]
      exact .opened given
  | refused given same =>
      rw [runOn_closingOnStop_of_error comes]
      exact .refused given ((tree_closeAll refuses held after).trans same)

private theorem closingOnStop_nil (action : Action α) : closingOnStop [] action = action := by
  have unchanged : (closingOnStop [] action).run = action.run >>= pure := by
    refine congrArg (action.run >>= ·) (funext fun outcome => ?_)
    cases outcome <;> rfl
  rw [bind_pure] at unchanged
  exact unchanged

private theorem exists_streamOpens (refuses : Machine → Call → Option AccessFault) (stream : Stream)
    (machine : Machine) (path? : Option String) (held : List (Option Handle)) :
    ∃ given, (closingOnStop held (openNamed stream.opening path?)).runOn
        (Machine.answerOrRefuse refuses) machine = given ∧
      StreamOpens refuses stream machine path? given :=
  ⟨_, rfl, (openNamed_streamOpens refuses stream machine path?).closingOnStop held⟩

section StreamOpens

variable {refuses : Machine → Call → Option AccessFault} {stream : Stream}
  {before after reached : Machine} {path? : Option String} {handle? : Option Handle}
  {todo opened : List Naming} {failure : Option Failure} {stop : Stop}

theorem StreamOpens.then (opens : StreamOpens refuses stream before path? (.ok handle?, after))
    (later : OpensUntil refuses todo after opened failure reached) :
    OpensUntil refuses (named stream path? ++ todo) before (named stream path? ++ opened) failure
      reached := by
  cases opens with
  | unnamed => exact later
  | opened given => exact .opened given later

theorem StreamOpens.stops (opens : StreamOpens refuses stream before path? (.error stop, after))
    (todo : List Naming) : after.tree = before.tree ∧ ∃ failure, stop = .failure failure ∧
      OpensUntil refuses (named stream path? ++ todo) before [] (some failure) before := by
  cases opens with
  | refused given same => exact ⟨same, _, rfl, .refused todo given⟩

theorem StreamOpens.holds (opens : StreamOpens refuses stream before path? (.ok handle?, after)) :
    before.Grows after ∧ Option.Rel (after.Holds stream.appends) path? handle? := by
  cases opens with
  | unnamed => exact ⟨.refl before, .none⟩
  | opened given =>
      obtain ⟨grows, holds⟩ := (Opening.of_openOn given).grows
      exact ⟨grows, .some holds⟩

end StreamOpens

/-! ## All files of a job -/

/-- Two of the files that a job names have one name. -/
def NamesTwice (job : Job) : Prop :=
  ∃ path, job.inputFile = some path ∧ job.outputFile = some path ∨
    job.inputFile = some path ∧ job.first.errorFile = some path ∨
    job.outputFile = some path ∧ job.first.errorFile = some path

private theorem conflict_iff (job : Job) : conflict job = true ↔ NamesTwice job := by
  unfold conflict NamesTwice names
  cases job.inputFile <;> cases job.outputFile <;> cases job.first.errorFile <;> grind

/-- What a job has when its files have been opened, or one has been refused. -/
inductive Resolved (job : Job) (reached : Machine) :
    Option Failure → Except Stop Redirections × Machine → Prop
  | opened {redirections : Redirections} :
      Option.Rel (reached.Holds Stream.input.appends) job.inputFile redirections.input →
      Option.Rel (reached.Holds Stream.output.appends) job.outputFile redirections.output →
      Option.Rel (reached.Holds Stream.errors.appends) job.first.errorFile redirections.errors →
      Resolved job reached none (.ok redirections, reached)
  | refused {failure : Failure} {after : Machine} :
      after.tree = reached.tree →
      Resolved job reached (some failure) (.error (.failure failure), after)

section Resolve

variable {refuses : Machine → Call → Option AccessFault} {job : Job}
  {before after reached : Machine}

private theorem resolve_of_namesTwice (twice : NamesTwice job) :
    (resolve job).runOn (Machine.answerOrRefuse refuses) before =
      (.error (.failure .redirectionConflict), before) := by
  unfold resolve
  rw [if_pos ((conflict_iff job).2 twice)]
  exact Action.runOn_fail _

private theorem resolve_of_once (once : ¬NamesTwice job) :
    resolve job = (do
      let input ← closingOnStop [] (openNamed Stream.input.opening job.inputFile)
      let output ← closingOnStop [input] (openNamed Stream.output.opening job.outputFile)
      let errors ← closingOnStop [input, output]
        (openNamed Stream.errors.opening job.first.errorFile)
      pure { input := input, output := output, errors := errors }) := by
  unfold resolve
  rw [if_neg (mt (conflict_iff job).1 once), closingOnStop_nil]
  rfl

private theorem resolve_opens (refuses : Machine → Call → Option AccessFault) (before : Machine)
    (once : ¬NamesTwice job) :
    ∃ opened failure reached, OpensUntil refuses (namings job) before opened failure reached ∧
      Resolved job reached failure
        ((resolve job).runOn (Machine.answerOrRefuse refuses) before) := by
  rw [resolve_of_once once]
  obtain ⟨⟨stop | input?, afterInput⟩, comes, input⟩ :=
    exists_streamOpens refuses .input before job.inputFile []
  · obtain ⟨same, failure, rfl, opens⟩ := input.stops _
    rw [Action.runOn_bind_of_error comes]
    exact ⟨_, _, _, opens, .refused same⟩
  rw [Action.runOn_bind_of_ok comes]
  obtain ⟨⟨stop | output?, afterOutput⟩, comes, output⟩ :=
    exists_streamOpens refuses .output afterInput job.outputFile [input?]
  · obtain ⟨same, failure, rfl, opens⟩ := output.stops _
    rw [Action.runOn_bind_of_error comes]
    exact ⟨_, _, _, input.then opens, .refused same⟩
  rw [Action.runOn_bind_of_ok comes]
  obtain ⟨⟨stop | errors?, afterErrors⟩, comes, errors⟩ :=
    exists_streamOpens refuses .errors afterOutput job.first.errorFile [input?, output?]
  · obtain ⟨same, failure, rfl, opens⟩ := errors.stops []
    rw [List.append_nil] at opens
    rw [Action.runOn_bind_of_error comes]
    exact ⟨_, _, _, input.then (output.then opens), .refused same⟩
  rw [Action.runOn_bind_of_ok comes, Action.runOn_pure]
  have opens := errors.then (.finished afterErrors)
  rw [List.append_nil] at opens
  obtain ⟨-, inputHolds⟩ := input.holds
  obtain ⟨outputGrows, outputHolds⟩ := output.holds
  obtain ⟨errorsGrows, errorsHolds⟩ := errors.holds
  have inputStill := (outputGrows.trans errorsGrows).holds_of_named inputHolds
  have outputStill := errorsGrows.holds_of_named outputHolds
  exact ⟨_, _, _, input.then (output.then opens), .opened inputStill outputStill errorsHolds⟩

private theorem Resolved.tree_eq {failure : Option Failure}
    {result : Except Stop Redirections × Machine}
    (resolved : Resolved job reached failure result) : result.2.tree = reached.tree := by
  cases resolved with
  | opened => rfl
  | refused same => exact same

private theorem Resolved.error_iff {reason : Failure} {failure : Option Failure}
    {result : Except Stop Redirections × Machine} (resolved : Resolved job reached failure result) :
    result.1 = .error (.failure reason) ↔ failure = some reason := by
  cases resolved <;> simp

private theorem isSome_eq_of_rel {γ δ : Type} {related : γ → δ → Prop} {first : Option γ}
    {second : Option δ} (rel : Option.Rel related first second) :
    second.isSome = first.isSome := by
  cases rel <;> rfl

/-- The streams of a job that has its files are those for which a file is named. -/
theorem Resolved.isSome {redirections : Redirections} {failure : Option Failure}
    {result : Except Stop Redirections × Machine} (resolved : Resolved job reached failure result)
    (opened : result.1 = .ok redirections) :
    redirections.input.isSome = job.inputFile.isSome ∧
      redirections.output.isSome = job.outputFile.isSome ∧
      redirections.errors.isSome = job.first.errorFile.isSome := by
  cases resolved with
  | refused => cases opened
  | opened input output errors =>
      cases opened
      exact ⟨isSome_eq_of_rel input, isSome_eq_of_rel output, isSome_eq_of_rel errors⟩

private theorem appends_of_rel {path? handle? : Option _} {handle : Handle}
    {file : Machine.OpenFileId} (holds : Option.Rel (reached.Holds true) path? handle?)
    (given : handle? = some handle) (leads : reached.session.openFile? handle.number = some file) :
    ∃ node, reached.Appends file node := by
  subst given
  cases holds with
  | some holds =>
      obtain ⟨other, node, opened, known, -⟩ := holds
      rw [leads] at opened
      cases opened
      exact ⟨node, 0, known⟩

/-- The output and the errors of a job that has its files are written at their ends. -/
theorem Resolved.appends {redirections : Redirections} {failure : Option Failure}
    {result : Except Stop Redirections × Machine} (resolved : Resolved job reached failure result)
    (opened : result.1 = .ok redirections) {handle : Handle} {file : Machine.OpenFileId}
    (stream : redirections.output = some handle ∨ redirections.errors = some handle)
    (leads : result.2.session.openFile? handle.number = some file) :
    ∃ node, result.2.Appends file node := by
  cases resolved with
  | refused => cases opened
  | opened input output errors =>
      cases opened
      obtain given | given := stream
      · exact appends_of_rel output given leads
      · exact appends_of_rel errors given leads

end Resolve

/-- What becomes of the files that a job names, whatever is refused. -/
structure ResolvesInOrder (refuses : Machine → Call → Option AccessFault) (job : Job)
    (before : Machine) (result : Except Stop Redirections × Machine) : Prop where
  conflict : result.1 = .error (.failure .redirectionConflict) ↔ NamesTwice job
  untouched : NamesTwice job → result.2 = before
  /-- Nothing that is there is changed; what is new is empty and for the owner only. -/
  kept : before.tree.Extends 0o600 result.2.tree
  /-- The files are opened in order until one is refused, which tells the failure; the missing
  output and error files among those that were opened are created, and no others. -/
  opens : ¬NamesTwice job → ∃ opened failure reached,
    OpensUntil refuses (namings job) before opened failure reached ∧
      Resolved job reached failure result ∧
      (failure = none → opened = namings job) ∧
      (∀ naming ∈ opened, ∃ node,
        result.2.tree.find before.session.directory naming.path = .ok node) ∧
      ∀ node, before.tree.nodes.size ≤ node ∧ node < result.2.tree.nodes.size ↔
        ∃ naming ∈ opened, naming.stream.appends = true ∧
          before.tree.find before.session.directory naming.path = .error .noEntry ∧
          result.2.tree.find before.session.directory naming.path = .ok node
  notFound : ∀ path, result.1 = .error (.failure (.fileNotFound path)) ↔
    ¬NamesTwice job ∧ job.inputFile = some path ∧
      Naming.openOn refuses before ⟨.input, path⟩ = (.error (.refused .noEntry), before)
  missingInput : ∀ path, job.inputFile = some path →
    before.tree.find before.session.directory path = .error .noEntry →
    result.2.tree = before.tree
  streams : ∀ redirections, result.1 = .ok redirections →
    redirections.input.isSome = job.inputFile.isSome ∧
      redirections.output.isSome = job.outputFile.isSome ∧
      redirections.errors.isSome = job.first.errorFile.isSome
  /-- What is written to the output and the errors comes after what their files held. -/
  written : ∀ redirections, result.1 = .ok redirections →
    ∀ writes : List (Machine.OpenFileId × ByteArray),
      (∀ write ∈ writes, ∃ handle,
        (redirections.output = some handle ∨ redirections.errors = some handle) ∧
          result.2.session.openFile? handle.number = some write.1) →
      ∀ node, (result.2.writeAll writes).tree.content? node =
        (result.2.tree.content? node).map fun content =>
          (result.2.writtenTo node writes).foldl (· ++ ·) content

/-- The files of a job are compared before any is opened, and then opened in the order input,
output, errors until one is refused. -/
theorem resolve_resolvesInOrder (refuses : Machine → Call → Option AccessFault) (job : Job)
    (before : Machine) :
    ResolvesInOrder refuses job before
      ((resolve job).runOn (Machine.answerOrRefuse refuses) before) := by
  by_cases twice : NamesTwice job
  · rw [resolve_of_namesTwice twice]
    constructor
    case kept => exact .refl _ before.tree
    all_goals simp [twice]
  obtain ⟨opened, failure, reached, opens, resolved⟩ := resolve_opens refuses before twice
  generalize (resolve job).runOn (Machine.answerOrRefuse refuses) before = result at resolved
  have tree := resolved.tree_eq
  constructor
  case conflict =>
    rw [resolved.error_iff]
    refine ⟨fun failed => ?_, fun named => absurd named twice⟩
    rw [failed] at opens
    obtain ⟨naming, -, fault, same⟩ := opens.exists_refused
    exact absurd same.symm (naming.failure_ne_conflict fault)
  case untouched => exact fun named => absurd named twice
  case kept =>
    rw [tree]
    exact opens.grows.tree
  case opens =>
    refine fun _ => ⟨opened, failure, reached, opens, resolved, ?_, ?_, fun node => ?_⟩
    · rintro rfl
      exact opens.eq_todo
    · rw [tree]
      exact opens.found
    · rw [tree]
      exact opens.created_iff node
  case notFound =>
    intro path
    rw [resolved.error_iff, opens.fileNotFound_iff]
    simp [twice]
  case missingInput =>
    intro path input missing
    rw [tree, opens.eq_of_missing input missing]
  case streams => exact fun redirections given => resolved.isSome given
  case written =>
    intro redirections given writes through node
    refine Machine.content?_writeAll writes (fun write listed => ?_) node
    obtain ⟨handle, stream, leads⟩ := through write listed
    exact resolved.appends given stream leads

end Redirections

end JobControl
