import JobControl.Proofs.Custody.Registering
/-!
# Background jobs in custody

Acting on signals, taking a job to the foreground and ending the session keep in custody what the
registry lists.  A job that is taken to the foreground is waited for to its end, and the status
that is recorded is that of its last step.
-/

namespace JobControl

open World

/-- What an operation leaves: it does not end the session, and the jobs that were in custody are
still there. -/
def Upholds (accounts : List Account) (outcome : Except Stop Unit) (session : Session)
    (after : Kernel) : Prop :=
  IsTame outcome ∧ session.jobs.CarriesOn after.attempts accounts

section Custody

variable {kernel : Kernel} {accounts : List Account} {session : Session}

theorem achieves_plain {α : Type} {action : Action α} {good : Except Stop α → Prop}
    (plain : Program.Within (fun call => call.isPlain = true) good action.run)
    (held : session.jobs.InCustody kernel.attempts accounts) :
    Kernel.telling.Achieves Call.IsSafe (liftM action : Activity α) session
      (fun outcome changed after => changed = session ∧ good outcome ∧
        session.jobs.InCustody after.attempts accounts) kernel := by
  rw [achieves_lift]
  refine (held.custody.plain plain).mono ?_
  rintro outcome after ⟨fine, kept⟩
  exact ⟨rfl, fine, kept, held.lists⟩

/-! ## Taking a job to the foreground -/

/-- Only the write itself fails when text cannot be written. -/
theorem write_within (outlet : Outlet) (text : String) :
    Program.Within (fun call => call.isPlain = true)
      (fun outcome => outcome = .ok () ∨
        ∃ reason, outcome = .error (.failure (.access (.refused reason))))
      (Action.write outlet text).run := by
  refine ⟨rfl, fun answer => ?_⟩
  cases answer with
  | ok _ => exact Or.inl rfl
  | error reason => exact Or.inr ⟨reason, rfl⟩

private theorem takeJob_lists {registry jobs : Registry} (lists : registry.Lists accounts)
    {wanted : Option Pid} {entry : Entry}
    (taken : Session.takeJob registry wanted = .ok (entry, jobs)) :
    ∃ before account after, accounts = before ++ account :: after ∧
      account.isOpen ∧ account.entry = entry ∧ jobs.Lists (before ++ after) := by
  obtain ⟨earlier, later, split, left⟩ := Registry.takeJob_eq_ok taken
  rw [lists] at split
  obtain ⟨before, account, after, same, isOpen, known, rest⟩ := entriesOf_eq_append_cons split
  refine ⟨before, account, after, same, isOpen, known, ?_⟩
  rw [left]
  exact rest

private theorem takeJob_isTame {registry : Registry} {wanted : Option Pid} {failure : Failure}
    (refused : Session.takeJob registry wanted = .error failure) :
    failure.isFatal = false := by
  cases wanted with
  | some pid =>
      unfold Session.takeJob Registry.remove at refused
      dsimp only at refused
      split at refused
      · cases refused
        rfl
      · cases refused
  | none =>
      unfold Session.takeJob Registry.removeOldest at refused
      dsimp only at refused
      split at refused
      · cases refused
        rfl
      · cases refused

/-- The job that is asked for is waited for and its status recorded, unless its line could not be
written. -/
def Foregrounds (session : Session) (accounts : List Account) (wanted : Option Pid)
    (outcome : Except Stop Unit) (changed : Session) (after : Kernel) : Prop :=
  ∀ entry jobs, Session.takeJob session.jobs wanted = .ok (entry, jobs) →
    ∃ account ∈ accounts, account.isOpen ∧ account.entry = entry ∧
      ((∃ reason, outcome = .error (.failure (.access (.refused reason)))) ∨
        outcome = .ok () ∧ Settled (account.attempts after.attempts) ∧
          changed.lastStatus = statusOf (account.attempts after.attempts))

theorem bringToForeground_upholds (held : session.jobs.InCustody kernel.attempts accounts)
    (wanted : Option Pid) (outlet : Outlet) :
    Kernel.telling.Achieves Call.IsSafe (Session.bringToForeground wanted outlet) session
      (fun outcome changed after => Upholds [] outcome changed after ∧
        Foregrounds session accounts wanted outcome changed after) kernel := by
  have nothing : Keeps [] accounts := fun account member => absurd member List.not_mem_nil
  unfold Session.bringToForeground
  rw [achieves_bind, achieves_get, afterActivity_ok]
  cases taken : Session.takeJob session.jobs wanted with
  | error failure =>
      refine ⟨⟨isTame_error (takeJob_isTame taken), accounts, nothing, held⟩, ?_⟩
      intro entry jobs found
      rw [taken] at found
      cases found
  | ok result =>
      obtain ⟨entry, jobs⟩ := result
      obtain ⟨before, account, after, rfl, isOpen, rfl, lists⟩ := takeJob_lists held.lists taken
      have none : ∀ others : List Account, Keeps [] others :=
        fun _ account member => absurd member List.not_mem_nil
      have moved : (before ++ account :: after).Perm (account :: (before ++ after)) :=
        List.perm_middle
      have member : account ∈ before ++ account :: after :=
        List.mem_append_right _ List.mem_cons_self
      have custody := held.custody.perm moved
      dsimp only
      rw [achieves_bind, achieves_set, afterActivity_ok, achieves_bind, achieves_lift]
      refine (custody.plain (write_within outlet _)).mono ?_
      rintro outcome written ⟨rfl | ⟨reason, rfl⟩, kept⟩
      · rw [afterActivity_ok, achieves_bind, achieves_lift]
        refine (Entry.wait_safe kept).mono ?_
        rintro outcome waited ⟨settled, rfl, job, finished, keptAfter⟩
        rw [afterActivity_ok]
        have follows := keptAfter.follows _ List.mem_cons_self
        obtain ⟨known, status, told, recorded⟩ := follows.settled finished
        dsimp only at recorded
        rw [recorded]
        unfold Session.recordStatus
        rw [achieves_modify]
        have others := keptAfter.sublist (List.sublist_cons_self _ _) (List.Sublist.refl [])
        refine ⟨⟨isTame_ok (), _, none _, others, lists⟩, ?_⟩
        intro entry jobs found
        rw [taken] at found
        cases found
        have same : account.attempts waited.attempts =
            Account.attempts ⟨account.start, settled⟩ waited.attempts := by
          unfold Account.attempts
          dsimp only
          rw [job]
        rw [← same] at known told
        exact ⟨account, member, isOpen, rfl, Or.inr ⟨rfl, known, told.symm⟩⟩
      · rw [afterActivity_error]
        have others := kept.sublist (List.sublist_cons_self _ _) (List.Sublist.refl [])
        refine ⟨⟨isTame_error rfl, _, none _, others, lists⟩, ?_⟩
        intro entry jobs found
        rw [taken] at found
        cases found
        exact ⟨account, member, isOpen, rfl, Or.inl ⟨reason, rfl⟩⟩

/-! ## Acting on signals -/

private theorem achieves_calm {α : Type} {action : Action α} (plain : action.IsPlain)
    (held : session.jobs.InCustody kernel.attempts accounts)
    (calm : kernel.isSweeping = false) :
    Kernel.telling.Achieves Call.NamesUncollected (liftM action : Activity α) session
      (fun outcome changed after => changed = session ∧ IsTame outcome ∧
        session.jobs.InCustody after.attempts accounts ∧ after.isSweeping = false) kernel := by
  rw [achieves_lift]
  have ensured := (held.custody.plain plain).calm
  refine (ensured.fits_mono fun _ _ safe => safe.1).mono ?_
  rintro outcome after ⟨⟨tame, kept⟩, same⟩
  exact ⟨rfl, tame, ⟨kept, held.lists⟩, same.trans calm⟩

private theorem tellShutdown_upholds (held : session.jobs.InCustody kernel.attempts accounts)
    (calm : kernel.isSweeping = false) :
    Kernel.telling.Achieves Call.NamesUncollected Session.tellShutdown session
      (fun outcome changed after => Upholds accounts outcome changed after ∧
        after.isSweeping = false) kernel := by
  have ensured := (held.custody.plain (Session.tellShutdown_within session)).calm
  refine (ensured.fits_mono fun _ _ safe => safe.1).mono ?_
  rintro ⟨outcome, changed⟩ after ⟨⟨⟨tame, rfl⟩, kept⟩, same⟩
  have inCustody : changed.jobs.InCustody after.attempts accounts := ⟨kept, held.lists⟩
  exact ⟨⟨tame, inCustody.carriesOn⟩, same.trans calm⟩

theorem processSignals_upholds (held : session.jobs.InCustody kernel.attempts accounts)
    (calm : kernel.isSweeping = false) :
    Kernel.telling.Achieves Call.NamesUncollected Session.processSignals session
      (fun outcome changed after => Upholds accounts outcome changed after ∧
        after.isSweeping = false) kernel := by
  unfold Session.processSignals
  rw [achieves_bind, achieves_lift, ensures_run_ask]
  intro asked drifts
  refine ⟨trivial, ?_⟩
  rintro taken after ⟨answered, ⟨flag, rfl⟩, rfl⟩
  have heldAsked : session.jobs.InCustody asked.attempts accounts :=
    ⟨held.custody.of_drifts drifts, held.lists⟩
  have calmAsked : asked.isSweeping = false :=
    (Kernel.isSweeping_of_drifts drifts).trans calm
  rw [afterActivity_ok]
  cases taken with
  | false => exact tellShutdown_upholds heldAsked calmAsked
  | true =>
      dsimp only
      rw [if_pos rfl, achieves_bind, achieves_get, afterActivity_ok, achieves_bind,
        achieves_lift, ensures_run_lift]
      refine Ensures.mono (reapChildren_reaps heldAsked) ?_
      rintro ⟨completed, jobs⟩ reaped ⟨⟨later, keeps, inCustody⟩, calmReaped⟩
      rw [afterActivity_ok, achieves_bind, achieves_set, afterActivity_ok, achieves_bind]
      refine (achieves_calm (Session.announceDone_isPlain completed) inCustody calmReaped).mono ?_
      rintro (stop | _) changed told ⟨rfl, tame, kept, calmTold⟩
      · exact ⟨⟨tame, kept.carriesOn.trans keeps⟩, calmTold⟩
      · rw [afterActivity_ok]
        refine (tellShutdown_upholds kept calmTold).mono ?_
        rintro outcome changed last ⟨⟨tameLast, carried⟩, calmLast⟩
        exact ⟨⟨tameLast, carried.trans keeps⟩, calmLast⟩

/-! ## Ending the session -/

theorem signalJobs_safe {entries : List Entry} {loose : List Pid}
    (custody : Custody kernel.attempts accounts loose)
    (there : ∀ pid ∈ entries.flatMap Entry.processes, pid ∈ kernel.uncollected) :
    Kernel.telling.Ensures Call.IsSafe (Session.signalJobs entries)
      (fun _ after => Custody after.attempts accounts loose) kernel := by
  induction entries generalizing kernel with
  | nil => exact custody
  | cons entry rest inductionHypothesis =>
      rw [List.flatMap_cons] at there
      rw [Session.signalJobs, ensures_bind]
      refine (sendShutdown_safe custody
        fun pid member => there pid (List.mem_append_left _ member)).mono ?_
      rintro _ after ⟨kept, same⟩
      refine inductionHypothesis kept fun pid member => ?_
      rw [same]
      exact there pid (List.mem_append_right _ member)

theorem exit_upholds (held : session.jobs.InCustody kernel.attempts accounts)
    (outlet : Outlet) :
    Kernel.telling.Achieves Call.IsSafe (Session.exit outlet) session (Upholds []) kernel := by
  unfold Session.exit
  rw [achieves_bind, achieves_get, afterActivity_ok]
  unfold Registry.drain
  dsimp only
  rw [achieves_bind, achieves_set, afterActivity_ok, achieves_bind, achieves_lift,
    ensures_run_lift]
  have there : ∀ pid ∈ session.jobs.entries.flatMap Entry.processes, pid ∈ kernel.uncollected := by
    intro pid member
    rw [held.lists, processes_entriesOf] at member
    exact held.custody.processes_mem_uncollected member
  have released : Custody kernel.attempts [] [] :=
    held.custody.sublist (List.nil_sublist accounts) (List.Sublist.refl [])
  refine (signalJobs_safe released there).mono ?_
  intro _ signalled kept
  rw [afterActivity_ok, achieves_bind]
  let emptied : Session := { session with jobs := { session.jobs with entries := [] } }
  have inCustody : emptied.jobs.InCustody signalled.attempts [] := ⟨kept, rfl⟩
  refine Achieves.mono
    (achieves_plain (Session.announceTerminated_isPlain outlet session.jobs.entries) inCustody) ?_
  rintro (stop | _) changed after ⟨rfl, tame, keptAfter⟩
  · exact ⟨tame, keptAfter.carriesOn⟩
  · rw [afterActivity_ok, achieves_modify]
    exact ⟨isTame_ok (), keptAfter.carriesOn⟩

end Custody

end JobControl
