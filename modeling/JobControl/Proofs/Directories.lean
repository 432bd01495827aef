import JobControl.Proofs.JobRuns
import JobControl.Proofs.RawText
/-!
# Changing the directory and going back

Directories that do not change while a session runs: a path leads from one to another or nowhere,
and a directory may have a name.  What is counted on is that the name of a directory leads to
nothing but this directory, and that a directory that was entered has a name.  Then the session
always knows the directory it came from by a name of it, and `-` leads back there.  A name is raw
text; it is kept and entered as it is, and only what is written of it is its text as it is shown,
which is the name itself where the name is a text, and no longer the name where it is none.
-/

namespace JobControl

open World

/-! ## Directories as a world -/

/-- What a session can learn about directories. -/
structure Directories (Place : Type) where
  /-- Where a path leads from a directory. -/
  enter : Place → RawText → Except AccessFault Place
  name : Place → Except Errno RawText
  environment : String → Option RawText
  accountHome : Option RawText

/-- Where a session is, and what it has written to its output. -/
structure Standing (Place : Type) where
  place : Place
  written : String := ""

namespace Directories

variable {Place : Type}

/-- The answers to a call.  What does not concern directories is answered anyhow; the output is
written. -/
def Answers (directories : Directories Place) :
    (call : Call) → Standing Place → call.Answer → Standing Place → Prop
  | .environment name, before, given, after =>
      given = directories.environment name ∧ after = before
  | .accountHome, before, given, after => given = directories.accountHome ∧ after = before
  | .currentDirectory, before, given, after =>
      given = directories.name before.place ∧ after = before
  | .changeDirectory path, before, given, after =>
      (∃ reached, directories.enter before.place path = .ok reached ∧ given = .ok () ∧
        after = { before with place := reached }) ∨
      ∃ fault, directories.enter before.place path = .error fault ∧ given = .error fault ∧
        after = before
  | .write .output text, before, given, after =>
      given = .ok () ∧ after = { before with written := before.written ++ text }
  | _, before, _, after => after = before

/-- Nothing happens to the directories by itself. -/
def world (directories : Directories Place) : World (Standing Place) where
  stirs _ _ := False
  answers := directories.Answers

/-- What is counted on. -/
structure AreFaithful (directories : Directories Place) : Prop where
  /-- The name of a directory leads to this directory, if anywhere. -/
  leadsBack : ∀ {place reached : Place} {path : RawText} (start : Place),
    directories.name place = .ok path → directories.enter start path = .ok reached → reached = place
  /-- A directory that was entered has a name. -/
  named : ∀ {start reached : Place} {path : RawText},
    directories.enter start path = .ok reached → ∃ name, directories.name reached = .ok name

/-- The home directory: the one that the environment names, or else the account. -/
def home? (directories : Directories Place) : Option RawText :=
  match directories.environment "HOME" with
  | some home => if home.isEmpty then directories.accountHome else some home
  | none => directories.accountHome

/-- The path that an operand stands for, where a directory is recorded as the previous one. -/
def target? (directories : Directories Place) (previous : Option RawText) :
    Option String → Option RawText
  | none => directories.home?
  | some "~" => directories.home?
  | some "-" => previous
  | some path => some (.ofText path)

variable {directories : Directories Place}

/-! ## Runs among directories -/

private theorem drifts_iff {before after : Standing Place} :
    directories.world.Drifts before after ↔ after = before := by
  constructor
  · intro drift
    cases drift using Relation.ReflTransGen.head_induction_on with
    | refl => rfl
    | head stirred _ => exact stirred.elim
  · rintro rfl
    exact Relation.ReflTransGen.refl

/-- What follows a question begins where the question is answered. -/
theorem comes_ask {α : Type} {call : Call} {next : call.Answer → Action α}
    {before after : Standing Place} {outcome : Except Stop α}
    (run : directories.world.Comes (Action.ask call >>= next).run before outcome after) :
    ∃ given answered, directories.Answers call before given answered ∧
      directories.world.Comes (next given).run answered outcome after := by
  obtain ⟨asked, given, answered, drift, answers, later⟩ := comes_step_iff.1 run
  obtain rfl := drifts_iff.1 drift
  exact ⟨given, answered, answers, later⟩

private theorem comes_result {α : Type} {given result : α} {before after : Standing Place}
    (run : directories.world.Comes (.done given) before result after) :
    result = given ∧ after = before := by
  obtain ⟨same, drift⟩ := comes_done_iff.1 run
  exact ⟨same, drifts_iff.1 drift⟩

private theorem comes_homeDirectory {before after : Standing Place}
    {outcome : Except Stop (Option RawText)}
    (run : directories.world.Comes Builtin.homeDirectory.run before outcome after) :
    outcome = .ok directories.home? ∧ after = before := by
  have account : ∀ {outcome : Except Stop (Option RawText)},
      directories.world.Comes (Action.ask .accountHome).run before outcome after →
      outcome = .ok directories.accountHome ∧ after = before := by
    intro outcome asks
    rw [← bind_pure (Action.ask .accountHome)] at asks
    obtain ⟨_, _, ⟨rfl, rfl⟩, later⟩ := comes_ask asks
    exact comes_result later
  obtain ⟨_, _, ⟨rfl, rfl⟩, later⟩ := comes_ask run
  unfold home?
  cases known : directories.environment "HOME" with
  | none =>
      rw [known] at later
      exact account later
  | some home =>
      rw [known] at later
      dsimp only at later ⊢
      by_cases empty : home.isEmpty = true
      · rw [if_pos empty] at later ⊢
        exact account later
      · rw [if_neg empty] at later ⊢
        exact comes_result later

private theorem mapError_eq_ok {α ε δ : Type} {result : Except ε α} {change : ε → δ} {value : α}
    (same : result.mapError change = .ok value) : result = .ok value := by
  cases result with
  | ok found =>
      cases same
      rfl
  | error reason => cases same

private theorem comes_currentDirectory {before after : Standing Place}
    {outcome : Except Stop RawText}
    (run : directories.world.Comes Builtin.currentDirectory.run before outcome after) :
    after = before ∧ outcome = (directories.name before.place).mapError
      fun reason => .failure (.access (.refused reason)) := by
  obtain ⟨_, answered, ⟨rfl, rfl⟩, later⟩ := comes_ask run
  cases named : directories.name answered.place with
  | ok path =>
      rw [named] at later
      exact (comes_result later).symm
  | error reason =>
      rw [named] at later
      exact (comes_result later).symm

private theorem comes_tellDirectory {before after : Standing Place} {outcome : Except Stop Unit}
    {now : RawText} (named : directories.name before.place = .ok now)
    (run : directories.world.Comes (Builtin.tellDirectory .output).run before outcome after) :
    outcome = .ok () ∧
      after = { before with written := before.written ++ (now.shown ++ "\n") } := by
  obtain ⟨path, middle, names, writes⟩ | ⟨stop, rfl, names⟩ := comes_run_bind_iff.1 run
  · obtain ⟨rfl, same⟩ := comes_currentDirectory names
    rw [named] at same
    cases same
    obtain ⟨_, _, ⟨rfl, rfl⟩, later⟩ := comes_ask writes
    exact comes_result later
  · obtain ⟨rfl, same⟩ := comes_currentDirectory names
    rw [named] at same
    cases same

/-- The directory to enter is the one that the operand stands for, and choosing it goes nowhere. -/
theorem comes_directoryToEnter {previous : Option RawText} {operand : Option String}
    {before after : Standing Place} {outcome : Except Stop RawText}
    (run : directories.world.Comes (Builtin.directoryToEnter previous operand).run before outcome
      after) :
    after = before ∧
      ((∃ path, directories.target? previous operand = some path ∧ outcome = .ok path) ∨
        directories.target? previous operand = none ∧ ∃ stop, outcome = .error stop) := by
  have enterHome : ∀ {outcome : Except Stop RawText},
      directories.world.Comes Builtin.directoryToEnter.enterHome.run before outcome after →
      after = before ∧ ((∃ path, directories.home? = some path ∧ outcome = .ok path) ∨
        directories.home? = none ∧ ∃ stop, outcome = .error stop) := by
    intro outcome enters
    obtain ⟨home, middle, asks, later⟩ | ⟨stop, rfl, asks⟩ := comes_run_bind_iff.1 enters
    · obtain ⟨same, rfl⟩ := comes_homeDirectory asks
      cases same
      cases known : directories.home? with
      | some path =>
          rw [known] at later
          obtain ⟨rfl, rfl⟩ := comes_result later
          exact ⟨rfl, .inl ⟨path, rfl, rfl⟩⟩
      | none =>
          rw [known] at later
          obtain ⟨rfl, rfl⟩ := comes_result later
          exact ⟨rfl, .inr ⟨rfl, _, rfl⟩⟩
    · cases (comes_homeDirectory asks).1
  unfold Builtin.directoryToEnter at run
  unfold target?
  split at run
  · cases previous with
    | some path =>
        obtain ⟨rfl, rfl⟩ := comes_result run
        exact ⟨rfl, .inl ⟨path, rfl, rfl⟩⟩
    | none =>
        obtain ⟨rfl, rfl⟩ := comes_result run
        exact ⟨rfl, .inr ⟨rfl, _, rfl⟩⟩
  · rename_i named other
    by_cases tilde : named = "~"
    · subst tilde
      exact enterHome run
    · rw [if_neg tilde] at run
      obtain ⟨rfl, rfl⟩ := comes_result run
      refine ⟨rfl, .inl ⟨.ofText named, ?_, rfl⟩⟩
      split <;> simp_all
  · exact enterHome run

/-! ## One change of directory -/

/-- A change of directory from one state of a session to another: the directory that the operand
stands for has been entered, the one that was left is the previous one, and the name of the new one
has been written, as it is shown. -/
structure Moves (directories : Directories Place) (operand : Option String)
    (before after : Session × Standing Place) : Prop where
  enters : ∃ path, directories.target? before.1.previousDirectory operand = some path ∧
    directories.enter before.2.place path = .ok after.2.place
  records : ∃ left, directories.name before.2.place = .ok left ∧
    after.1 = { before.1 with previousDirectory := some left }
  tells : ∃ now, directories.name after.2.place = .ok now ∧
    after.2.written = before.2.written ++ (now.shown ++ "\n")

/-- It is known where to go and what is left, and the way is open. -/
def HasWay (directories : Directories Place) (operand : Option String)
    (before : Session × Standing Place) : Prop :=
  ∃ path left reached, directories.target? before.1.previousDirectory operand = some path ∧
    directories.name before.2.place = .ok left ∧
    directories.enter before.2.place path = .ok reached

variable {before after : Session × Standing Place} {operand : Option String}
  {outcome : Except Stop Unit}

/-- A change of directory fails and changes nothing, or moves; and it moves if there is a way. -/
theorem changeDirectory_moves (faithful : directories.AreFaithful)
    (run : directories.world.Performs (Builtin.changeDirectory operand .output) before outcome
      after) :
    (outcome = .ok () ∧ directories.Moves operand before after) ∨
      after = before ∧ (∃ stop, outcome = .error stop) ∧
        ¬ directories.HasWay operand before := by
  obtain ⟨session, standing⟩ := before
  obtain ⟨changed, last⟩ := after
  cases performs_changeDirectory run with
  | unknown chooses =>
      obtain ⟨rfl, ⟨_, _, broken⟩ | ⟨nowhere, -⟩⟩ := comes_directoryToEnter chooses
      · cases broken
      · refine .inr ⟨rfl, ⟨_, rfl⟩, ?_⟩
        rintro ⟨path, left, reached, target, -⟩
        cases nowhere.symm.trans target
  | unnamed chooses names =>
      obtain ⟨rfl, -⟩ := comes_directoryToEnter chooses
      obtain ⟨rfl, same⟩ := comes_currentDirectory names
      refine .inr ⟨rfl, ⟨_, rfl⟩, ?_⟩
      rintro ⟨path, left, reached, -, named, -⟩
      rw [named] at same
      cases same
  | refused chooses names refuses =>
      obtain ⟨rfl, ⟨_, target, same⟩ | ⟨-, _, broken⟩⟩ := comes_directoryToEnter chooses
      · cases same
        obtain ⟨rfl, -⟩ := comes_currentDirectory names
        obtain ⟨_, _, _, drift, answers, later⟩ := comes_step_iff.1 refuses
        obtain rfl := drifts_iff.1 drift
        obtain ⟨same, rfl⟩ := comes_result later
        cases same
        obtain ⟨_, _, broken, -⟩ | ⟨fault, refused, -, rfl⟩ := answers
        · cases broken
        · refine .inr ⟨rfl, ⟨_, rfl⟩, ?_⟩
          rintro ⟨path, left, reached, also, -, entered⟩
          cases target.symm.trans also
          cases refused.symm.trans entered
      · cases broken
  | entered chooses names drift answers tells =>
      obtain ⟨rfl, ⟨path, target, same⟩ | ⟨-, _, broken⟩⟩ := comes_directoryToEnter chooses
      · cases same
        obtain ⟨rfl, left⟩ := comes_currentDirectory names
        obtain rfl := drifts_iff.1 drift
        obtain ⟨reached, enters, -, rfl⟩ | ⟨_, -, broken, -⟩ := answers
        · obtain ⟨now, isNow⟩ := faithful.named enters
          obtain ⟨rfl, rfl⟩ := comes_tellDirectory isNow tells
          exact .inl ⟨rfl, ⟨_, target, enters⟩, ⟨_, mapError_eq_ok left.symm, rfl⟩, now, isNow, rfl⟩
        · cases broken
      · cases broken

/-- What the arguments of `cd` say is done, or they are refused and nothing is. -/
theorem cd_moves (faithful : directories.AreFaithful) {arguments : List String}
    (run : directories.world.Performs (Builtin.cd.run arguments .output) before outcome after) :
    (outcome = .ok () ∧ ∃ operand, Builtin.cd.operand? arguments = .ok operand ∧
        directories.Moves operand before after) ∨
      after = before ∧ (∃ stop, outcome = .error stop) ∧
        ∀ operand, Builtin.cd.operand? arguments = .ok operand →
          ¬ directories.HasWay operand before := by
  unfold Builtin.run at run
  cases given : Builtin.cd.operand? arguments with
  | error failure =>
      rw [given] at run
      obtain ⟨same, still⟩ := comes_result run
      obtain ⟨rfl, unchanged⟩ := Prod.mk.inj same
      exact .inr ⟨Prod.ext unchanged still, ⟨_, rfl⟩, fun _ broken => nomatch broken⟩
  | ok operand =>
      rw [given] at run
      obtain ⟨rfl, moves⟩ | ⟨same, fails, noWay⟩ := changeDirectory_moves faithful run
      · exact .inl ⟨rfl, operand, rfl, moves⟩
      · refine .inr ⟨same, fails, ?_⟩
        rintro _ ⟨⟩
        exact noWay

/-! ## What a session comes to -/

/-- What a fresh session may have come to, wherever it was begun and whatever it was asked. -/
inductive Reaches (directories : Directories Place) : Session × Standing Place → Prop where
  | fresh (settings : Settings) (standing : Standing Place) :
      Reaches directories (Session.ofSettings settings, standing)
  | performs (operation : Operation) {before after : Session × Standing Place}
      {outcome : Except Stop Unit} (reached : Reaches directories before)
      (run : directories.world.Performs operation.activity before outcome after) :
      Reaches directories after

/-- The previous directory that a session has recorded is the name of some directory. -/
def Knows (directories : Directories Place) (session : Session) : Prop :=
  ∀ path, session.previousDirectory = some path → ∃ place, directories.name place = .ok path

theorem Knows.of_same {session changed : Session} (knows : directories.Knows session)
    (same : changed.previousDirectory = session.previousDirectory) : directories.Knows changed := by
  intro path recorded
  exact knows path (same ▸ recorded)

private theorem knows_of_entersDirectory {session changed : Session}
    {standing last : Standing Place} (knows : directories.Knows session)
    (enters : EntersDirectory directories.world operand .output session standing outcome changed
      last) : directories.Knows changed := by
  cases enters with
  | unknown _ => exact knows
  | unnamed _ _ => exact knows
  | refused _ _ _ => exact knows
  | @entered path left _ chosen _ _ _ _ _ names _ _ _ =>
      have named := (comes_currentDirectory names).2
      rintro _ ⟨⟩
      exact ⟨chosen.place, mapError_eq_ok named.symm⟩

private theorem knows_of_jobRuns {job : Job} (knows : directories.Knows before.1)
    (runs : JobRuns directories.world job before outcome after) : directories.Knows after.1 := by
  obtain same | ⟨-, operand, enters⟩ := runs.previousDirectory
  · exact knows.of_same same
  · exact knows_of_entersDirectory knows enters

theorem Reaches.knows (reached : directories.Reaches before) : directories.Knows before.1 := by
  induction reached with
  | fresh settings standing => exact fun _ broken => nomatch broken
  | @performs operation before after outcome _ run inductionHypothesis =>
      cases operation with
      | line text =>
          obtain same | ⟨job, inner, middle, -, first, -⟩ := performs_runLine run
          · exact inductionHypothesis.of_same (congrArg Session.previousDirectory same)
          · have knows := knows_of_jobRuns inductionHypothesis (performs_runJob first)
            exact knows
      | job asked => exact knows_of_jobRuns inductionHypothesis (performs_runJob run)
      | signals =>
          have kept : Session.processSignals.Keeps (fun _ => True) directories.Knows :=
            Session.processSignals_keeps_others fun _ _ knows => knows
          obtain ⟨-, -, knows⟩ := Ensures.result (kept.achieves inductionHypothesis before.2) run
          exact knows
      | foreground wanted outlet =>
          obtain ⟨session, standing⟩ := before
          obtain ⟨changed, last⟩ := after
          cases performs_bringToForeground run <;> exact inductionHypothesis
      | exit outlet =>
          obtain ⟨session, standing⟩ := before
          obtain ⟨changed, last⟩ := after
          cases performs_exit_cases run <;> exact inductionHypothesis

/-- Every program has a run among directories. -/
theorem exists_comes {α : Type} (program : Program α) (standing : Standing Place) :
    ∃ result after, directories.world.Comes program standing result after := by
  have answered : ∀ (call : Call) (standing : Standing Place),
      ∃ given after, directories.Answers call standing given after := by
    intro call standing
    cases call with
    | environment name => exact ⟨_, _, rfl, rfl⟩
    | accountHome => exact ⟨_, _, rfl, rfl⟩
    | currentDirectory => exact ⟨_, _, rfl, rfl⟩
    | changeDirectory path =>
        cases enters : directories.enter standing.place path with
        | ok reached => exact ⟨_, _, .inl ⟨reached, enters, rfl, rfl⟩⟩
        | error fault => exact ⟨_, _, .inr ⟨fault, enters, rfl, rfl⟩⟩
    | write outlet text =>
        cases outlet with
        | output => exact ⟨_, _, rfl, rfl⟩
        | errors => exact ⟨.ok (), _, rfl⟩
        | provided => exact ⟨.ok (), _, rfl⟩
    | catchSignal _ => exact ⟨.ok (), _, rfl⟩
    | takeFlag _ => exact ⟨false, _, rfl⟩
    | openInput _ => exact ⟨.error .nulInName, _, rfl⟩
    | openOutput _ _ => exact ⟨.error .nulInName, _, rfl⟩
    | makePipe _ => exact ⟨.error .noEntry, _, rfl⟩
    | close _ => exact ⟨(), _, rfl⟩
    | launch _ => exact ⟨.error .nulInName, _, rfl⟩
    | wait _ => exact ⟨.error .noChild, _, rfl⟩
    | lookAtChildren => exact ⟨.ok none, _, rfl⟩
    | sendShutdown _ => exact ⟨.ok (), _, rfl⟩
    | bound _ => exact ⟨(0 : Nat), _, rfl⟩
    | now => exact ⟨(⟨0⟩ : Moment), _, rfl⟩
    | readLine => exact ⟨.ok none, _, rfl⟩
  induction program generalizing standing with
  | done result => exact ⟨result, standing, Relation.ReflTransGen.refl⟩
  | step call next inductionHypothesis =>
      obtain ⟨given, middle, answers⟩ := answered call standing
      obtain ⟨result, after, later⟩ := inductionHypothesis given middle
      exact ⟨result, after, Leads.answer given answers later⟩

/-- Every activity has a run among directories. -/
theorem exists_performs {α : Type} (activity : Activity α) (before : Session × Standing Place) :
    ∃ outcome after, directories.world.Performs activity before outcome after := by
  obtain ⟨⟨outcome, changed⟩, last, comes⟩ := exists_comes (activity.perform before.1) before.2
  exact ⟨outcome, (changed, last), comes⟩

/-! ## Going back -/

/-- A directory can be entered from another one by the name that it has. -/
def CanReturn (directories : Directories Place) (start place : Place) : Prop :=
  ∃ path reached, directories.name place = .ok path ∧ directories.enter start path = .ok reached

private theorem operand?_back : Builtin.cd.operand? ["-"] = .ok (some "-") := by
  decide +kernel

private theorem target?_back (previous : Option RawText) :
    directories.target? previous (some "-") = previous :=
  rfl

private theorem cd_back_moves (faithful : directories.AreFaithful)
    (run : directories.world.Performs (Builtin.cd.run ["-"] .output) before (.ok ()) after) :
    directories.Moves (some "-") before after := by
  obtain ⟨-, operand, given, moves⟩ | ⟨-, ⟨_, broken⟩, -⟩ := cd_moves faithful run
  · cases operand?_back.symm.trans given
    exact moves
  · cases broken

namespace Moves

/-- A directory whose name is a text is told by its name. -/
theorem tells_text {text : String} (moves : directories.Moves operand before after)
    (named : directories.name after.2.place = .ok (.ofText text)) :
    after.2.written = before.2.written ++ (text ++ "\n") := by
  obtain ⟨now, isNow, written⟩ := moves.tells
  cases named.symm.trans isNow
  rwa [RawText.shown_ofText] at written

variable {last : Session × Standing Place}

/-- The recorded directory leads back to the one that was left. -/
theorem back (moves : directories.Moves operand before after)
    (faithful : directories.AreFaithful) (again : directories.Moves (some "-") after last) :
    last.2.place = before.2.place := by
  obtain ⟨left, named, changed⟩ := moves.records
  obtain ⟨path, target, enters⟩ := again.enters
  rw [target?_back, changed] at target
  cases target
  exact faithful.leadsBack _ named enters

/-- Going to the recorded directory and back restores what was recorded. -/
theorem restores (faithful : directories.AreFaithful) (knows : directories.Knows before.1)
    (moves : directories.Moves (some "-") before after)
    (again : directories.Moves (some "-") after last) : last.1 = before.1 := by
  obtain ⟨path, recorded, enters⟩ := moves.enters
  rw [target?_back] at recorded
  obtain ⟨place, named⟩ := knows path recorded
  obtain ⟨left, -, changed⟩ := moves.records
  obtain ⟨other, namedAfter, restored⟩ := again.records
  rw [faithful.leadsBack _ named enters, named] at namedAfter
  cases namedAfter
  rw [restored, changed, ← recorded]

/-- There is a way back if the directory that was left can be entered. -/
theorem hasWay (moves : directories.Moves operand before after)
    (enterable : directories.CanReturn after.2.place before.2.place) :
    directories.HasWay (some "-") after := by
  obtain ⟨path, named, changed⟩ := moves.records
  obtain ⟨now, isNow, -⟩ := moves.tells
  obtain ⟨_, reached, also, enters⟩ := enterable
  cases named.symm.trans also
  refine ⟨path, now, reached, ?_, isNow, enters⟩
  rw [target?_back, changed]

end Moves

end Directories

open Directories in
/-- Wherever a session has come to, `cd` comes to an outcome.  Where it fails, session and directory
are as they were; otherwise it has entered the directory that was asked for, recorded the one that
it left, and written the name of the new one as it is shown, which is exactly this name if the name
is a text.  From there `-` leads back, as long as the directory that was left can be entered; and
going back twice restores the session and its directory. -/
theorem cd_returns {Place : Type} {directories : Directories Place}
    (faithful : directories.AreFaithful) {start : Session × Standing Place}
    (reached : directories.Reaches start) :
    (∀ arguments,
      (∃ outcome after,
        directories.world.Performs (Builtin.cd.run arguments .output) start outcome after) ∧
      ∀ outcome after,
        directories.world.Performs (Builtin.cd.run arguments .output) start outcome after →
        (outcome = .ok () ∧ ∃ operand, Builtin.cd.operand? arguments = .ok operand ∧
            directories.Moves operand start after) ∨
          after = start ∧ (∃ stop, outcome = .error stop) ∧
            ∀ operand, Builtin.cd.operand? arguments = .ok operand →
              ¬ directories.HasWay operand start) ∧
    (∀ arguments after (text : String),
      directories.world.Performs (Builtin.cd.run arguments .output) start (.ok ()) after →
      directories.name after.2.place = .ok (.ofText text) →
      after.2.written = start.2.written ++ (text ++ "\n")) ∧
    (∀ arguments after,
      directories.world.Performs (Builtin.cd.run arguments .output) start (.ok ()) after →
      directories.CanReturn after.2.place start.2.place →
      ∀ outcome last,
        directories.world.Performs (Builtin.cd.run ["-"] .output) after outcome last →
        outcome = .ok () ∧ last.2.place = start.2.place) ∧
    ∀ after last,
      directories.world.Performs (Builtin.cd.run ["-"] .output) start (.ok ()) after →
      directories.world.Performs (Builtin.cd.run ["-"] .output) after (.ok ()) last →
      last.1 = start.1 ∧ last.2.place = start.2.place := by
  refine ⟨fun arguments => ⟨exists_performs _ start, ?_⟩, ?_, ?_, ?_⟩
  · exact fun outcome after run => cd_moves faithful run
  · intro arguments after text run named
    obtain ⟨-, operand, -, moves⟩ | ⟨-, ⟨_, broken⟩, -⟩ := cd_moves faithful run
    · exact moves.tells_text named
    · cases broken
  · intro arguments after run enterable outcome last back
    obtain ⟨-, operand, -, moves⟩ | ⟨-, ⟨_, broken⟩, -⟩ := cd_moves faithful run
    · obtain ⟨rfl, -⟩ | ⟨-, -, noWay⟩ := cd_moves faithful back
      · exact ⟨rfl, moves.back faithful (cd_back_moves faithful back)⟩
      · exact absurd (moves.hasWay enterable) (noWay _ operand?_back)
    · cases broken
  · intro after last first second
    have moves := cd_back_moves faithful first
    have again := cd_back_moves faithful second
    exact ⟨moves.restores faithful reached.knows again, moves.back faithful again⟩

/-- Two directories, each of which can be entered from the other. -/
def twoDirectories : Directories Bool where
  enter _ path :=
    if path = "/home" then .ok false
    else if path = "/tmp" then .ok true
    else .error (.refused .noEntry)
  name place := .ok (if place then "/tmp" else "/home")
  environment name := if name = "HOME" then some "/home" else none
  accountHome := none

private theorem twoDirectories_areFaithful : twoDirectories.AreFaithful where
  leadsBack := by
    rintro (_ | _) reached _ start ⟨⟩ ⟨⟩ <;> rfl
  named := fun _ => ⟨_, rfl⟩

theorem cd_returns_between_two :
    ∃ after last,
      twoDirectories.world.Performs (Builtin.cd.run ["/tmp"] .output)
        (Session.ofSettings {}, ⟨false, ""⟩) (.ok ()) after ∧ after.2.place = true ∧
      twoDirectories.world.Performs (Builtin.cd.run ["-"] .output) after (.ok ()) last ∧
      last.2.place = false := by
  have begun : twoDirectories.Reaches (Session.ofSettings {}, ⟨false, ""⟩) :=
    .fresh {} ⟨false, ""⟩
  obtain ⟨goes, -, returns, -⟩ := cd_returns twoDirectories_areFaithful begun
  obtain ⟨⟨outcome, after, run⟩, all⟩ := goes ["/tmp"]
  have given : Builtin.cd.operand? ["/tmp"] = .ok (some "/tmp") := by decide +kernel
  obtain ⟨rfl, operand, also, moves⟩ | ⟨-, -, noWay⟩ := all outcome after run
  · cases given.symm.trans also
    obtain ⟨path, target, enters⟩ := moves.enters
    cases target
    have moved : true = after.2.place := Except.ok.inj enters
    have asks : twoDirectories.world.Performs
        (Operation.job { input := "cd /tmp", first := ⟨"cd", ["/tmp"], none⟩ }).activity
        (Session.ofSettings {}, ⟨false, ""⟩) (.ok ()) after := run
    obtain ⟨again, -⟩ := cd_returns twoDirectories_areFaithful (begun.performs _ asks)
    obtain ⟨⟨outcome, last, back⟩, -⟩ := again ["-"]
    obtain ⟨rfl, place⟩ := returns _ _ run ⟨_, _, rfl, rfl⟩ _ _ back
    exact ⟨after, last, run, moved.symm, back, place⟩
  · exact absurd ⟨_, _, _, rfl, rfl, rfl⟩ (noWay _ given)

/-- A slash and a byte that stands in no text. -/
def unreadableName : RawText :=
  ⟨[0x2F, 0xFF]⟩

/-- A directory whose name is no text, with a link to it. -/
def linkedDirectory : Directories Bool where
  enter _ path :=
    if path = "/" then .ok false
    else if path = "link" ∨ path = unreadableName then .ok true
    else .error (.refused .noEntry)
  name place := .ok (if place then unreadableName else "/")
  environment _ := none
  accountHome := none

private theorem linkedDirectory_areFaithful : linkedDirectory.AreFaithful where
  leadsBack := by
    rintro (_ | _) reached _ start ⟨⟩ ⟨⟩ <;> rfl
  named := fun _ => ⟨_, rfl⟩

/-- What is written of a directory whose name is no text is not its name. -/
theorem cd_shows_other_than_name :
    ∃ name after,
      linkedDirectory.AreFaithful ∧
      linkedDirectory.Reaches (Session.ofSettings {}, ⟨false, ""⟩) ∧
      linkedDirectory.world.Performs (Builtin.cd.run ["link"] .output)
        (Session.ofSettings {}, ⟨false, ""⟩) (.ok ()) after ∧
      linkedDirectory.name after.2.place = .ok name ∧
      RawText.ofText after.2.written ≠ name ++ RawText.ofText "\n" := by
  have begun : linkedDirectory.Reaches (Session.ofSettings {}, ⟨false, ""⟩) := .fresh {} ⟨false, ""⟩
  have given : Builtin.cd.operand? ["link"] = .ok (some "link") := by decide +kernel
  have differs : RawText.ofText ("" ++ (unreadableName.shown ++ "\n")) ≠
      unreadableName ++ RawText.ofText "\n" := by decide +kernel
  obtain ⟨outcome, ⟨changed, last, written⟩, run⟩ :=
    @Directories.exists_performs Bool linkedDirectory Unit (Builtin.cd.run ["link"] .output)
      (Session.ofSettings {}, ⟨false, ""⟩)
  obtain ⟨rfl, operand, also, moves⟩ | ⟨-, -, noWay⟩ :=
    Directories.cd_moves linkedDirectory_areFaithful run
  · cases given.symm.trans also
    obtain ⟨path, target, enters⟩ := moves.enters
    cases target
    obtain rfl : true = last := Except.ok.inj enters
    obtain ⟨now, isNow, rfl⟩ := moves.tells
    obtain rfl : unreadableName = now := Except.ok.inj isNow
    exact ⟨_, _, linkedDirectory_areFaithful, begun, run, isNow, differs⟩
  · exact absurd ⟨_, _, _, rfl, rfl, rfl⟩ (noWay _ given)

end JobControl
