import JobControl.Proofs.Ledger.Taking
/-!
# What an operation does to the registered jobs

An operation reaps children and tells which jobs are done, takes one job to the foreground, ends
the session, or takes nothing out of the registry, where it may enter one job.  A line does what
its job does, and a job what the builtin does that it names.
-/

namespace JobControl

open World

/-- What an operation is there for, as far as the registered jobs are concerned. -/
inductive Deed where
  | reaps
  | takes (wanted : Option Pid) (outlet : Outlet)
  | ends (outlet : Outlet)
  /-- It takes no job out of the registry. -/
  | other
  deriving DecidableEq, Repr

/-- Where a deed is told of. -/
def Deed.outlet : Deed → Outlet
  | .takes _ outlet => outlet
  | .ends outlet => outlet
  | _ => .output

def Builtin.deedWith (outlet : Outlet) : Builtin → Option String → Deed
  | .exit, _ => .ends outlet
  | .fg, none => .takes none outlet
  | .fg, some text =>
      match Builtin.readPid text with
      | .ok pid => .takes (some pid) outlet
      | .error _ => .other
  | _, _ => .other

def Builtin.deed (builtin : Builtin) (arguments : List String) (outlet : Outlet) : Deed :=
  match builtin.operand? arguments with
  | .ok operand => builtin.deedWith outlet operand
  | .error _ => .other

def Job.deed (job : Job) : Deed :=
  match Builtin.ofName? job.program with
  | some builtin => builtin.deed job.first.arguments .output
  | none => .other

def Deed.ofParsed : Except Stop (Option Job) → Deed
  | .ok (some job) => job.deed
  | _ => .other

def Operation.deed : Operation → Deed
  | .line text => Deed.ofParsed (Job.parse text)
  | .job asked => asked.deed
  | .signals => .reaps
  | .foreground pid outlet => .takes pid outlet
  | .exit outlet => .ends outlet

/-! ## What is told of a deed -/

namespace Deed

/-- The notices that jobs are done. -/
def done (before after : Kernel) : Deed → List String
  | .reaps => before.shownUntil after (Answered.text? .output)
  | _ => []

/-- The lines of jobs that are shown as they are taken to the foreground. -/
def echoed (before after : Kernel) : Deed → List String
  | .takes _ outlet => before.shownUntil after (Answered.text? outlet)
  | _ => []

/-- The processes that are waited for in the foreground. -/
def waited (before after : Kernel) : Deed → List Pid
  | .takes _ _ => before.shownUntil after Answered.waited?
  | _ => []

/-- The notices that jobs are terminated. -/
def terminated (before after : Kernel) : Deed → List String
  | .ends outlet => before.shownUntil after (Answered.text? outlet)
  | _ => []

end Deed

/-! ## Ledgers -/

/-- Jobs by what has become of them since they were registered. -/
structure Ledger where
  /-- Still registered. -/
  listed : List Account := []
  /-- Told to be done. -/
  done : List Account := []
  /-- Shown and waited for in the foreground. -/
  foregrounded : List Account := []
  /-- Told to be terminated. -/
  terminated : List Account := []

namespace Ledger

/-- The jobs that have left the registry. -/
def gone (ledger : Ledger) : List Account :=
  ledger.done ++ ledger.foregrounded ++ ledger.terminated

def all (ledger : Ledger) : List Account :=
  ledger.listed ++ ledger.gone

/-- What an operation does to the jobs that were listed: some are added, and the ledger says what
becomes of them and of the others. -/
structure Tells (session : Session) (kernel : Kernel) (deed : Deed) (listed added : List Account)
    (ledger : Ledger) (changed : Session) (after : Kernel) : Prop where
  carries : changed.jobs.Carries after.attempts ledger.listed
  grows : Grows kernel.attempts after.attempts
  same : ((listed ++ added).map Account.registration).Perm (ledger.all.map Account.registration)
  entries : changed.jobs.entries.drop session.jobs.entries.length = added.map Account.entry
  atMostOne : added.length ≤ 1
  starts : ∀ account ∈ added, account.start = kernel.attempts.length
  done : deed.done kernel after =
    ledger.done.map fun account => Session.jobNotice account.entry "Done"
  echoed : deed.echoed kernel after =
    ledger.foregrounded.map fun account => account.entry.job.input ++ "\n"
  waited : deed.waited kernel after =
    ledger.foregrounded.flatMap fun account => account.entry.processes
  terminated : deed.terminated kernel after =
    ledger.terminated.map fun account => Session.jobNotice account.entry "Terminated"
  finished : ∀ account ∈ ledger.done ++ ledger.foregrounded,
    account.registration.Finished after.attempts
  named : ∀ account ∈ ledger.gone, account.IsNamed after.attempts

namespace Tells

variable {session changed : Session} {kernel after : Kernel} {listed : List Account}

/-- When no job is added, the registry has no entry beyond those it had. -/
theorem entries_of_fewer {left : List Account}
    (before : session.jobs.Carries kernel.attempts listed)
    (carries : changed.jobs.Carries after.attempts left) (fewer : left.length ≤ listed.length) :
    changed.jobs.entries.drop session.jobs.entries.length = [] := by
  rw [List.drop_eq_nil_iff, before.entries, carries.entries, List.length_map, List.length_map]
  exact fewer

private theorem of_tellsDone (before : session.jobs.Carries kernel.attempts listed)
    (told : session.TellsDone kernel listed changed after)
    (grows : Grows kernel.attempts after.attempts) :
    ∃ ledger, Tells session kernel .reaps listed [] ledger changed after := by
  obtain ⟨left, completed, done, -, completes, record⟩ := told
  have count := completes.same.length_eq
  rw [List.length_map, List.length_map, List.length_append] at count
  exact ⟨{ listed := left, done := done },
    { carries := completes.carries
      grows := grows
      same := by simpa [all, gone] using completes.same
      entries := entries_of_fewer before completes.carries (by omega)
      atMostOne := Nat.zero_le 1
      starts := by simp
      done := Kernel.shownUntil_of_append record
      echoed := rfl
      waited := rfl
      terminated := rfl
      finished := by simpa using completes.finished
      named := by simpa [gone] using completes.named }⟩

private theorem of_takesOut (before : session.jobs.Carries kernel.attempts listed)
    {wanted : Option Pid} {outlet : Outlet}
    (takes : session.TakesOut kernel listed outlet changed after)
    (grows : Grows kernel.attempts after.attempts) :
    ∃ ledger, Tells session kernel (.takes wanted outlet) listed [] ledger changed after := by
  cases takes with
  | nothing carries entries shown waited =>
      exact ⟨{ listed := listed },
        { carries := carries
          grows := grows
          same := by simp [all, gone]
          entries := entries_of_fewer before carries (Nat.le_refl _)
          atMostOne := Nat.zero_le 1
          starts := by simp
          done := rfl
          echoed := Kernel.shownUntil_of_append (by simpa using shown)
          waited := Kernel.shownUntil_of_append (by simpa using waited)
          terminated := rfl
          finished := by simp
          named := by simp [gone] }⟩
  | @takes front others account split carries finished named shown waited =>
      have moved : (front ++ account :: others).Perm (front ++ others ++ [account]) :=
        List.perm_middle.trans (List.perm_append_singleton account (front ++ others)).symm
      exact ⟨{ listed := front ++ others, foregrounded := [account] },
        { carries := carries
          grows := grows
          same := by
            rw [List.append_nil, split]
            simpa [all, gone] using moved.map Account.registration
          entries := entries_of_fewer before carries (by simp [split])
          atMostOne := Nat.zero_le 1
          starts := by simp
          done := rfl
          echoed := Kernel.shownUntil_of_append shown
          waited := Kernel.shownUntil_of_append (by simpa using waited)
          terminated := rfl
          finished := by simpa using finished
          named := by simpa [gone] using named }⟩

/-- When the session ends, all jobs that were listed are terminated. -/
theorem of_exit {outlet : Outlet} (before : session.jobs.Carries kernel.attempts listed)
    (carries : changed.jobs.Carries after.attempts [])
    (grows : Grows kernel.attempts after.attempts)
    (record : after.record (Answered.text? outlet) = kernel.record (Answered.text? outlet) ++
      listed.map fun account => Session.jobNotice account.entry "Terminated") :
    ∃ ledger, Tells session kernel (.ends outlet) listed [] ledger changed after := by
  exact ⟨{ terminated := listed },
    { carries := carries
      grows := grows
      same := by simp [all, gone]
      entries := entries_of_fewer before carries (Nat.zero_le _)
      atMostOne := Nat.zero_le 1
      starts := by simp
      done := rfl
      echoed := rfl
      waited := rfl
      terminated := Kernel.shownUntil_of_append record
      finished := by simp
      named := by
        intro account member
        have known : account ∈ listed := by simpa [gone] using member
        exact (before.custody.isNamed known (before.isOpen account known)).of_grows grows }⟩

/-- An operation that takes no job out may add one. -/
theorem of_added {added : List Account} (before : session.jobs.Carries kernel.attempts listed)
    (held : changed.jobs.InCustody after.attempts (listed ++ added))
    (isOpen : ∀ account ∈ added, account.isOpen = true) (atMostOne : added.length ≤ 1)
    (starts : ∀ account ∈ added, account.start = kernel.attempts.length)
    (grows : Grows kernel.attempts after.attempts) :
    ∃ ledger, Tells session kernel .other listed added ledger changed after := by
  have allOpen : ∀ account ∈ listed ++ added, account.isOpen = true := by
    intro account known
    obtain earlier | new := List.mem_append.1 known
    · exact before.isOpen account earlier
    · exact isOpen account new
  have carries := held.carries
  rw [List.filter_eq_self.2 allOpen] at carries
  exact ⟨{ listed := listed ++ added },
    { carries := carries
      grows := grows
      same := by simp [all, gone]
      entries := by
        rw [carries.entries, before.entries, List.length_map, List.map_append,
          List.drop_left' (List.length_map _)]
      atMostOne := atMostOne
      starts := starts
      done := rfl
      echoed := rfl
      waited := rfl
      terminated := rfl
      finished := by simp
      named := by simp [gone] }⟩

private theorem of_sparesJobs {outcome : Except Stop Unit}
    (before : session.jobs.Carries kernel.attempts listed)
    (spares : SparesJobs session.jobs listed outcome changed after)
    (grows : Grows kernel.attempts after.attempts) :
    ∃ added ledger, Tells session kernel .other listed added ledger changed after := by
  obtain ⟨-, same, held⟩ := spares
  rw [← same, ← List.append_nil listed] at held
  exact ⟨[], of_added before held (by simp) (Nat.zero_le 1) (by simp) grows⟩

private theorem of_performs {job : Job} {outcome : Except Stop Unit}
    (before : session.jobs.Carries kernel.attempts listed)
    (performs : Performs kernel.attempts.length job listed outcome changed after)
    (grows : Grows kernel.attempts after.attempts) :
    ∃ added ledger, Tells session kernel .other listed added ledger changed after := by
  obtain ⟨tame, later, enters, held, -⟩ := performs
  obtain rfl | ⟨entered, rfl, start, -, isOpen⟩ := enters
  · rw [← List.append_nil later] at held
    exact ⟨[], of_added before held (by simp) (Nat.zero_le 1) (by simp) grows⟩
  · exact ⟨[entered], of_added before held (by simpa using isOpen) (Nat.le_refl 1)
      (by simpa using start) grows⟩

/-- What is told stays so as long as nothing more is told and no child is waited for. -/
theorem stays {deed : Deed} {added : List Account} {ledger : Ledger} {last : Kernel}
    (tells : Tells session kernel deed listed added ledger changed after)
    (custody : Custody last.attempts ledger.listed [])
    (grows : Grows after.attempts last.attempts)
    (texts : last.record (Answered.text? deed.outlet) =
      after.record (Answered.text? deed.outlet))
    (waited : last.record Answered.waited? = after.record Answered.waited?) :
    Tells session kernel deed listed added ledger changed last := by
  have sameTexts : kernel.shownUntil last (Answered.text? deed.outlet) =
      kernel.shownUntil after (Answered.text? deed.outlet) := by
    unfold Kernel.shownUntil
    rw [texts]
  have sameWaits : kernel.shownUntil last Answered.waited? =
      kernel.shownUntil after Answered.waited? := by
    unfold Kernel.shownUntil
    rw [waited]
  exact
    { tells with
      carries := tells.carries.of_custody custody
      grows := tells.grows.trans grows
      done := by
        rw [← tells.done]
        cases deed <;> first | exact sameTexts | rfl
      echoed := by
        rw [← tells.echoed]
        cases deed <;> first | exact sameTexts | rfl
      waited := by
        rw [← tells.waited]
        cases deed <;> first | exact sameWaits | rfl
      terminated := by
        rw [← tells.terminated]
        cases deed <;> first | exact sameTexts | rfl
      finished := fun account member => (tells.finished account member).of_grows grows
      named := fun account member => (tells.named account member).of_grows grows }

theorem of_drifts {deed : Deed} {added : List Account} {ledger : Ledger} {last : Kernel}
    (tells : Tells session kernel deed listed added ledger changed after)
    (drifts : Kernel.telling.Drifts after last) :
    Tells session kernel deed listed added ledger changed last :=
  tells.stays (tells.carries.custody.of_drifts drifts) (Kernel.grows_of_later drifts.later)
    (Kernel.record_of_drifts drifts) (Kernel.record_of_drifts drifts)

end Tells

end Ledger

/-! ## Operations -/

section Operations

variable {session : Session} {kernel : Kernel} {listed : List Account} {outlets : List Outlet}

/-- An operation does to the jobs that were listed what its deed tells. -/
def Deed.IsDone (deed : Deed) (session : Session) (kernel : Kernel) (listed : List Account)
    (_outcome : Except Stop Unit) (changed : Session) (after : Kernel) : Prop :=
  ∃ added ledger, Ledger.Tells session kernel deed listed added ledger changed after

/-- What an activity achieves is told, as the table can only grow. -/
theorem isDone_of_achieves {deed : Deed} {fits : Call → Kernel → Prop}
    {activity : Activity Unit} {post : Except Stop Unit → Session → Kernel → Prop}
    (achieved : (Kernel.hearing Ending.IsTold outlets).Achieves fits activity session post kernel)
    (tells : ∀ outcome changed after, post outcome changed after →
      Grows kernel.attempts after.attempts →
      deed.IsDone session kernel listed outcome changed after) :
    (Kernel.hearing Ending.IsTold outlets).Achieves (fun _ _ => True) activity session
      (deed.IsDone session kernel listed) kernel := by
  have grows := (ensures_grows Ending.IsTold (activity.perform session) kernel).restrict
    (Kernel.Hears outlets)
  have whole := Ensures.fits_mono (fun _ _ _ => trivial) achieved
  exact Ensures.mono (Ensures.and whole grows) fun outcome after reached =>
    tells outcome.1 outcome.2 after reached.1 reached.2

private theorem bringToForeground_isDone (carries : session.jobs.Carries kernel.attempts listed)
    (wanted : Option Pid) {outlet : Outlet} (heard : outlet ∈ outlets) :
    (Kernel.hearing Ending.IsTold outlets).Achieves (fun _ _ => True)
      (Session.bringToForeground wanted outlet) session
      ((Deed.takes wanted outlet).IsDone session kernel listed) kernel :=
  isDone_of_achieves (bringToForeground_takesOut carries wanted heard)
    fun _ _ _ takes grows => ⟨[], Ledger.Tells.of_takesOut carries takes grows⟩

private theorem exit_isDone (carries : session.jobs.Carries kernel.attempts listed)
    {outlet : Outlet} (heard : outlet ∈ outlets) :
    (Kernel.hearing Ending.IsTold outlets).Achieves (fun _ _ => True)
      (Session.exit outlet) session ((Deed.ends outlet).IsDone session kernel listed) kernel :=
  isDone_of_achieves (exit_tellsTerminated carries heard)
    fun _ _ _ ⟨left, _, record⟩ grows => ⟨[], Ledger.Tells.of_exit carries left grows record⟩

private theorem sparing_isDone (carries : session.jobs.Carries kernel.attempts listed)
    {activity : Activity Unit}
    (spares : Kernel.telling.Achieves Call.IsSafe activity session
      (SparesJobs session.jobs listed) kernel) :
    (Kernel.hearing Ending.IsTold outlets).Achieves (fun _ _ => True) activity session
      (Deed.other.IsDone session kernel listed) kernel :=
  isDone_of_achieves (Ensures.restrict spares (Kernel.Hears outlets))
    fun _ _ _ spared grows => Ledger.Tells.of_sparesJobs carries spared grows

private theorem builtin_isDone (builtin : Builtin) (arguments : List String) {outlet : Outlet}
    (carries : session.jobs.Carries kernel.attempts listed) (heard : outlet ∈ outlets) :
    (Kernel.hearing Ending.IsTold outlets).Achieves (fun _ _ => True)
      (builtin.run arguments outlet) session
      ((builtin.deed arguments outlet).IsDone session kernel listed) kernel := by
  have held := carries.inCustody
  have fails : ∀ failure, failure.isFatal = false →
      Kernel.telling.Achieves Call.IsSafe (Activity.fail failure) session
        (SparesJobs session.jobs listed) kernel :=
    fun failure tame => ⟨isTame_error tame, rfl, held⟩
  unfold Builtin.run Builtin.deed
  cases read : builtin.operand? arguments with
  | error failure => exact sparing_isDone carries (fails failure (operand_isTame read))
  | ok operand =>
      unfold Builtin.runWith Builtin.deedWith
      cases builtin with
      | bglist =>
          apply sparing_isDone carries
          rw [achieves_bind, achieves_get, afterActivity_ok]
          exact sparesJobs_of_plain (Builtin.listJobs_isPlain _ _) held
      | cd => exact sparing_isDone carries (changeDirectory_sparesJobs operand outlet held)
      | estatus =>
          apply sparing_isDone carries
          rw [achieves_bind, achieves_get, afterActivity_ok]
          exact sparesJobs_of_plain (Action.write_isPlain _ _) held
      | exit => exact exit_isDone carries heard
      | fg =>
          cases operand with
          | none => exact bringToForeground_isDone carries none heard
          | some text =>
              dsimp only
              cases named : Builtin.readPid text with
              | ok pid => exact bringToForeground_isDone carries (some pid) heard
              | error failure => exact sparing_isDone carries (fails failure (readPid_isTame named))

private theorem runJob_isDone (job : Job) (carries : session.jobs.Carries kernel.attempts listed)
    (heard : .output ∈ outlets) :
    (Kernel.hearing Ending.IsTold outlets).Achieves (fun _ _ => True)
      (Session.runJob job) session (job.deed.IsDone session kernel listed) kernel := by
  unfold Session.runJob Job.deed
  cases Builtin.ofName? job.program with
  | some builtin => exact builtin_isDone builtin _ carries heard
  | none =>
      have performs := runProgramJob_performs job carries.inCustody
      exact isDone_of_achieves (Ensures.restrict performs (Kernel.Hears outlets))
        fun _ _ _ performed grows => Ledger.Tells.of_performs carries performed grows

private theorem Builtin.deedWith_outlet (builtin : Builtin) (operand : Option String) :
    (builtin.deedWith .output operand).outlet = .output := by
  cases builtin with
  | fg =>
      cases operand with
      | none => rfl
      | some text =>
          unfold Builtin.deedWith
          dsimp only
          cases Builtin.readPid text <;> rfl
  | _ => rfl

/-- What a line does is told at the output. -/
theorem Deed.ofParsed_outlet (parsed : Except Stop (Option Job)) :
    (Deed.ofParsed parsed).outlet = .output := by
  match parsed with
  | .error stop => rfl
  | .ok none => rfl
  | .ok (some job) =>
      unfold Deed.ofParsed Job.deed Builtin.deed
      dsimp only
      cases Builtin.ofName? job.program with
      | none => rfl
      | some builtin =>
          dsimp only
          cases builtin.operand? job.first.arguments with
          | error failure => rfl
          | ok operand => exact builtin.deedWith_outlet operand

/-- Telling of a failure does nothing to the jobs. -/
theorem Deed.IsDone.complain {deed : Deed} {changed : Session} {after : Kernel}
    {outcome : Except Stop Unit} (outlet : deed.outlet ≠ .errors)
    (isDone : deed.IsDone session kernel listed outcome changed after) (failure : Failure) :
    (Kernel.hearing Ending.IsTold outlets).Ensures (fun _ _ => True)
      (Action.complain failure).run
      (fun told last => deed.IsDone session kernel listed told changed last) after := by
  obtain ⟨added, ledger, tells⟩ := isDone
  have plain := Action.complain_isPlain failure
  have quiet : (Action.complain failure).Makes (fun call => call.isQuiet = true) fun _ => True :=
    Action.notice_makes rfl fun _ => trivial
  have unheard := ((quiet.mono (fun _ allowed => Call.hidden_of_quiet allowed outlet)
    fun _ _ => trivial).record_eq Ending.IsTold after).restrict (Kernel.Hears outlets)
  have unwaited := ((plain.mono (fun _ allowed => Call.hidden_of_plain allowed)
    fun _ _ => trivial).record_eq Ending.IsTold after).restrict (Kernel.Hears outlets)
  have held := (tells.carries.custody.plain_grows plain).restrict (Kernel.Hears outlets)
  refine Ensures.mono (Ensures.and (Ensures.and unheard unwaited) held) ?_
  rintro told last ⟨⟨⟨-, texts⟩, -, waits⟩, -, custody, grows⟩
  exact ⟨added, ledger, tells.stays custody grows texts waits⟩

private theorem runParsed_isDone (parsed : Except Stop (Option Job))
    (tame : ∀ stop, parsed = .error stop → stop.isFatal = false)
    (carries : session.jobs.Carries kernel.attempts listed) (heard : .output ∈ outlets) :
    (Kernel.hearing Ending.IsTold outlets).Achieves (fun _ _ => True)
      (Session.runParsed parsed) session
      ((Deed.ofParsed parsed).IsDone session kernel listed) kernel := by
  have held := carries.inCustody
  match parsed with
  | .ok (some job) => exact runJob_isDone job carries heard
  | .ok none =>
      have spares : Kernel.telling.Achieves Call.IsSafe (pure ()) session
          (SparesJobs session.jobs listed) kernel := ⟨isTame_ok (), rfl, held⟩
      exact sparing_isDone carries spares
  | .error stop =>
      have spares : Kernel.telling.Achieves Call.IsSafe (throw stop) session
          (SparesJobs session.jobs listed) kernel := ⟨isTame_error (tame stop rfl), rfl, held⟩
      exact sparing_isDone carries spares

private theorem runLine_isDone (text : String)
    (carries : session.jobs.Carries kernel.attempts listed) (heard : .output ∈ outlets) :
    (Kernel.hearing Ending.IsTold outlets).Achieves (fun _ _ => True)
      (Session.runLine text) session
      ((Operation.line text).deed.IsDone session kernel listed) kernel := by
  have outlet : (Operation.line text).deed.outlet ≠ .errors := by
    rw [Operation.deed, Deed.ofParsed_outlet]
    decide
  have parsed := runParsed_isDone (Job.parse text) (fun _ => parse_isTame) carries heard
  exact parsed.report fun failure _ _ _ isDone => isDone.complain outlet failure

/-- Every operation does what its deed tells, if the output and the outlet of the deed are
heard. -/
theorem operation_isDone (operation : Operation)
    (carries : session.jobs.Carries kernel.attempts listed) :
    (Kernel.hearing Ending.IsTold [.output, operation.deed.outlet]).Achieves (fun _ _ => True)
      operation.activity session (operation.deed.IsDone session kernel listed) kernel := by
  have heard : .output ∈ [.output, operation.deed.outlet] := List.mem_cons_self
  have heardDeed : operation.deed.outlet ∈ [.output, operation.deed.outlet] :=
    List.mem_cons_of_mem _ List.mem_cons_self
  cases operation with
  | line text => exact runLine_isDone text carries heard
  | job asked => exact runJob_isDone asked carries heard
  | foreground pid outlet => exact bringToForeground_isDone carries pid heardDeed
  | exit outlet => exact exit_isDone carries heardDeed
  | signals =>
      exact isDone_of_achieves (processSignals_tellsDone carries heard)
        fun _ _ _ told grows => ⟨[], Ledger.Tells.of_tellsDone carries told grows⟩

end Operations

end JobControl
