import JobControl.Proofs.Ledger.Carrying
/-!
# Jobs that are done

When the session acts on signals, the jobs that its looks at the children complete leave the
registry and are told of, each once; the others stay.  When a job is told of, all its processes
have been collected.
-/

namespace JobControl

open World

variable {kernel : Kernel} {listed : List Account} {registry : Registry} {session : Session}

/-! ## What stays -/

/-- Whatever a program does, the table grows. -/
theorem ensures_grows {α : Type} (endings : Ending → Prop) (program : Program α)
    (kernel : Kernel) :
    (Kernel.world endings).Ensures (fun _ _ => True) program
      (fun _ after => Grows kernel.attempts after.attempts) kernel :=
  (ensures_later program kernel).mono fun _ _ later => Kernel.grows_of_later later

/-- A program of plain calls keeps what is in custody, and the table grows. -/
theorem Custody.plain_grows {α : Type} {good : α → Prop}
    (custody : Custody kernel.attempts listed []) {program : Program α}
    (plain : program.Within (fun call => call.isPlain = true) good) :
    Kernel.telling.Ensures (fun _ _ => True) program
      (fun result after => good result ∧ Custody after.attempts listed [] ∧
        Grows kernel.attempts after.attempts) kernel := by
  have kept := (custody.plain plain).fits_mono fun _ _ _ => trivial
  refine (kept.and (ensures_grows Ending.IsTold program kernel)).mono ?_
  exact fun _ _ ⟨⟨fine, held⟩, grows⟩ => ⟨fine, held, grows⟩

/-- What was completed stays so. -/
theorem Registry.Completes.stays {table after : List Attempt} {left done : List Account}
    {completed : List Entry} (completes : registry.Completes table listed left completed done)
    (custody : Custody after left []) (grows : Grows table after) :
    registry.Completes after listed left completed done where
  carries := completes.carries.of_custody custody
  completed := completes.completed
  same := completes.same
  finished := fun account member => (completes.finished account member).of_grows grows
  named := fun account member => (completes.named account member).of_grows grows

/-! ## Looking at the children -/

private theorem lookAtChildren_completes (carries : registry.Carries kernel.attempts listed)
    (looks : Nat) :
    Kernel.telling.Ensures (fun _ _ => True) (lookAtChildren looks)
      (fun notices after => ∃ left done, (collect registry notices).2.Completes after.attempts
        listed left (collect registry notices).1 done) kernel := by
  -- Each look may complete a job, so the jobs that are listed change from look to look.
  induction looks generalizing registry listed kernel with
  | zero => exact ⟨listed, [], carries.completes⟩
  | succ looks inductionHypothesis =>
      have carriesAsked : ∀ asked : Kernel, Kernel.telling.Drifts kernel asked →
          registry.Carries asked.attempts listed := fun asked drifts =>
        carries.of_custody (carries.custody.of_drifts drifts)
      refine lookAtChildren_ensures (fun _ _ => trivial) ?_ ?_ ?_
      · intro asked pid ending turned drifts turns
        obtain ⟨attempt, known, lived⟩ := turns.exists_mem
        have told : ending.IsTold :=
          (carriesAsked asked drifts).custody.orderly.endings attempt known pid ending lived
        obtain ⟨left, done, noted⟩ := (carriesAsked asked drifts).markReaped turns
        rw [if_pos told.hasName, ensures_bind]
        refine Ensures.mono ((inductionHypothesis noted.carries).and
          (ensures_grows Ending.IsTold _ _)) ?_
        rintro notices last ⟨⟨rest, more, others⟩, grows⟩
        exact ⟨rest, done ++ more, noted.trans others grows⟩
      · exact fun asked _ drifts _ _ => ⟨listed, [], (carriesAsked asked drifts).completes⟩
      · exact fun asked drifts _ => inductionHypothesis (carriesAsked asked drifts)

private theorem reapChildren_completes (carries : registry.Carries kernel.attempts listed) :
    Kernel.telling.Ensures (fun _ _ => True) (reapChildren registry)
      (fun result after => ∃ left done,
        result.2.Completes after.attempts listed left result.1 done) kernel := by
  unfold reapChildren
  rw [ensures_bind, ensures_ask]
  intro asked drifts
  refine ⟨trivial, fun looks after answers => ?_⟩
  have carriesAfter : registry.Carries after.attempts listed := by
    rw [Kernel.attempts_of_plain rfl answers]
    exact carries.of_custody (carries.custody.of_drifts drifts)
  rw [ensures_bind]
  exact (lookAtChildren_completes carriesAfter (looks + 1)).mono fun _ _ reached => reached

private theorem lookAtChildren_isSilent (looks : Nat) :
    (lookAtChildren looks).Only fun call => call.isSilent = true := by
  induction looks with
  | zero => exact trivial
  | succ looks inductionHypothesis =>
      refine Program.Within.bind (Program.only_ask rfl) fun given _ => ?_
      split
      · exact trivial
      · exact inductionHypothesis
      · exact trivial
      · exact Program.Within.bind inductionHypothesis fun _ _ => trivial

private theorem reapChildren_isSilent (registry : Registry) :
    (reapChildren registry).Only fun call => call.isSilent = true :=
  Program.Within.bind (Program.only_ask rfl) fun looks _ =>
    Program.Within.bind (lookAtChildren_isSilent (looks + 1)) fun _ _ => trivial

/-! ## Telling of done jobs -/

/-- A text for the output tells that a listed job is done, and it is finished. -/
def Call.TellsOfDone (listed : List Account) (call : Call) (kernel : Kernel) : Prop :=
  ∀ text, call = .write .output text → ∃ account ∈ listed, ∃ entry : Entry,
    entry.job = account.entry.job ∧ text = Session.jobNotice entry "Done" ∧
      account.registration.Finished kernel.attempts

private theorem Call.tellsOfDone_of_silent {call : Call} (silent : call.isSilent = true)
    (kernel : Kernel) : call.TellsOfDone listed kernel := by
  rintro text rfl
  cases silent

private theorem Call.tellsOfDone_of_quiet {call : Call} (quiet : call.isQuiet = true)
    (kernel : Kernel) : call.TellsOfDone listed kernel := by
  rintro text rfl
  cases quiet

private theorem Registry.Completes.tellsOfDone {table : List Attempt} {left done : List Account}
    {completed : List Entry} (completes : registry.Completes table listed left completed done)
    {entry : Entry} (member : entry ∈ completed) {asked : Kernel}
    (grows : Grows table asked.attempts) :
    (Call.write .output (Session.jobNotice entry "Done")).TellsOfDone listed asked := by
  rintro text equal
  cases equal
  rw [completes.completed] at member
  obtain ⟨account, known, rfl⟩ := List.mem_map.1 member
  have registered : account.registration ∈ listed.map Account.registration := by
    rw [completes.same.mem_iff]
    exact List.mem_map_of_mem (List.mem_append_right left known)
  obtain ⟨other, otherKnown, same⟩ := List.mem_map.1 registered
  refine ⟨other, otherKnown, account.entry, ?_, rfl, ?_⟩
  · exact (congrArg Registration.job same).symm
  · rw [same]
    exact (completes.finished account known).of_grows grows

private theorem tellShutdown_isQuiet (session : Session) :
    Program.Within (fun call => call.isQuiet = true) (fun result => result.2 = session)
      (Session.tellShutdown.perform session) := by
  refine ⟨rfl, fun taken => ?_⟩
  cases taken with
  | false => exact rfl
  | true =>
      refine ⟨rfl, fun moment => ⟨rfl, fun given => ?_⟩⟩
      cases given with
      | ok _ => exact rfl
      | error reason => exact rfl

/-- What acting on signals leaves: of the listed jobs some are left, and those that are done have
been told of. -/
def Session.TellsDone (session : Session) (kernel : Kernel) (listed : List Account)
    (changed : Session) (after : Kernel) : Prop :=
  ∃ left completed done, changed = { session with jobs := changed.jobs } ∧
    changed.jobs.Completes after.attempts listed left completed done ∧
    after.record (Answered.text? .output) = kernel.record (Answered.text? .output) ++
      done.map fun account => Session.jobNotice account.entry "Done"

private theorem tellShutdown_tellsDone {left done : List Account} {completed : List Entry}
    (completes : session.jobs.Completes kernel.attempts listed left completed done)
    {outlets : List Outlet} :
    (Kernel.hearing Ending.IsTold outlets).Achieves (Call.TellsOfDone listed)
      Session.tellShutdown session
      (fun _ changed after => changed = session ∧
        session.jobs.Completes after.attempts listed left completed done ∧
        after.record (Answered.text? .output) = kernel.record (Answered.text? .output))
      kernel := by
  have quiet := tellShutdown_isQuiet session
  have notErrors : Outlet.output ≠ .errors := by decide
  have hidden := quiet.mono (fun _ allowed => Call.hidden_of_quiet allowed notErrors)
    fun _ fine => fine
  have fits : (Kernel.hearing Ending.IsTold outlets).Ensures (Call.TellsOfDone listed)
      (Session.tellShutdown.perform session) (fun result _ => result.2 = session) kernel :=
    quiet.fits (fun _ state allowed => Call.tellsOfDone_of_quiet allowed state) kernel
  have record := (hidden.record_eq Ending.IsTold kernel).restrict (Kernel.Hears outlets)
  have grows := (completes.carries.custody.plain_grows
    (Session.tellShutdown_within session)).restrict (Kernel.Hears outlets)
  refine ((fits.and record).and grows).mono ?_
  rintro ⟨outcome, changed⟩ after ⟨⟨rfl, -, same⟩, -, custody, grown⟩
  exact ⟨rfl, completes.stays custody grown, same⟩

theorem processSignals_tellsDone (carries : session.jobs.Carries kernel.attempts listed)
    {outlets : List Outlet} (heard : .output ∈ outlets) :
    (Kernel.hearing Ending.IsTold outlets).Achieves (Call.TellsOfDone listed)
      Session.processSignals session
      (fun _ changed after => session.TellsDone kernel listed changed after) kernel := by
  unfold Session.processSignals
  rw [achieves_bind, achieves_lift, ensures_run_ask]
  intro asked drifts
  refine ⟨Call.tellsOfDone_of_silent rfl asked, ?_⟩
  rintro taken after ⟨answers, -⟩
  have same : after.attempts = asked.attempts := by
    obtain ⟨answered, ⟨-, rfl⟩, rfl⟩ := answers
    rfl
  have carriesAfter : session.jobs.Carries after.attempts listed := by
    rw [same]
    exact carries.of_custody (carries.custody.of_drifts drifts)
  have record : after.record (Answered.text? .output) =
      kernel.record (Answered.text? .output) := by
    rw [Kernel.record_of_answers answers, Kernel.record_of_drifts drifts]
    exact List.append_nil _
  rw [afterActivity_ok]
  cases taken with
  | false =>
      refine Achieves.mono (tellShutdown_tellsDone carriesAfter.completes) ?_
      rintro outcome changed last ⟨rfl, completes, unchanged⟩
      refine ⟨listed, [], [], rfl, completes, ?_⟩
      rw [unchanged, record, List.map_nil, List.append_nil]
  | true =>
      dsimp only
      rw [if_pos rfl, achieves_bind, achieves_get, afterActivity_ok, achieves_bind,
        achieves_lift, ensures_run_lift]
      have silent := reapChildren_isSilent session.jobs
      have hidden := silent.mono (fun _ allowed => Call.hidden_of_silent allowed .output)
        fun _ fine => fine
      have unheard := (hidden.record_eq Ending.IsTold after).restrict (Kernel.Hears outlets)
      have reaps := (reapChildren_completes carriesAfter).restrict (Kernel.Hears outlets)
      refine Ensures.mono (Ensures.and (Ensures.and (silent.fits
        (fun _ state allowed => Call.tellsOfDone_of_silent allowed state) after) unheard) reaps) ?_
      rintro ⟨completed, jobs⟩ reaped ⟨⟨-, -, quiet⟩, left, done, completes⟩
      rw [afterActivity_ok, achieves_bind, achieves_set, afterActivity_ok, achieves_bind,
        achieves_lift]
      have grows := (completes.carries.custody.plain_grows
        (Session.announceDone_isPlain completed)).restrict (Kernel.Hears outlets)
      refine Ensures.mono (Ensures.and (announceDone_hears heard fun asked later entry member =>
        completes.tellsOfDone member (Kernel.grows_of_later later)) grows) ?_
      rintro _ told ⟨⟨rfl, written⟩, -, custody, grown⟩
      rw [afterActivity_ok]
      let reaping : Session := { session with jobs := jobs }
      have completesTold : reaping.jobs.Completes told.attempts listed left completed done :=
        completes.stays custody grown
      refine Achieves.mono (tellShutdown_tellsDone completesTold) ?_
      rintro outcome changed last ⟨rfl, completesLast, unchanged⟩
      refine ⟨left, completed, done, rfl, completesLast, ?_⟩
      rw [unchanged, written.texts, quiet, record, completesTold.completed, List.map_map]
      rfl

end JobControl
