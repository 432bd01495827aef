import JobControl.Proofs.Ledger.Reaping
/-!
# Jobs taken to the foreground, and the end of all jobs

A job that is taken to the foreground leaves the registry, its line is shown, and all its processes
are waited for.  When the session is asked to end, every job leaves the registry and is told of.
-/

namespace JobControl

open World

variable {kernel : Kernel} {listed : List Account} {session : Session}

/-- Taking out a job that the registry carries leaves the others. -/
theorem Registry.Carries.takeJob {registry changed : Registry} {table : List Attempt}
    (carries : registry.Carries table listed) {wanted : Option Pid} {entry : Entry}
    (taken : Session.takeJob registry wanted = .ok (entry, changed)) :
    ∃ before account after, listed = before ++ account :: after ∧ account.entry = entry ∧
      changed.Carries table (before ++ after) := by
  obtain ⟨front, back, split, rfl⟩ := Registry.takeJob_eq_ok taken
  rw [carries.entries] at split
  obtain ⟨before, others, rfl, rfl, othersListed⟩ := List.map_eq_append_iff.1 split
  obtain ⟨account, after, rfl, rfl, rfl⟩ := List.map_eq_cons_iff.1 othersListed
  have fewer : (before ++ after).Sublist (before ++ account :: after) :=
    (List.sublist_cons_self account after).append_left before
  refine ⟨before, account, after, rfl, rfl, ?_, ?_, ?_⟩
  · exact carries.custody.sublist fewer (List.Sublist.refl [])
  · exact (List.map_append).symm
  · exact fun other member => carries.isOpen other (fewer.subset member)

/-- What taking a job to the foreground leaves: nothing has changed if there is no such job, and
else the job is gone from the registry, and it was shown and waited for. -/
inductive Session.TakesOut (session : Session) (kernel : Kernel) (listed : List Account)
    (outlet : Outlet) (changed : Session) (after : Kernel) : Prop where
  | nothing (carries : changed.jobs.Carries after.attempts listed)
      (entries : changed.jobs.entries = session.jobs.entries)
      (shown : after.record (Answered.text? outlet) = kernel.record (Answered.text? outlet))
      (waited : after.record Answered.waited? = kernel.record Answered.waited?)
  | takes {before others : List Account} {account : Account}
      (split : listed = before ++ account :: others)
      (carries : changed.jobs.Carries after.attempts (before ++ others))
      (finished : account.registration.Finished after.attempts)
      (named : account.IsNamed after.attempts)
      (shown : after.record (Answered.text? outlet) =
        kernel.record (Answered.text? outlet) ++ [account.entry.job.input ++ "\n"])
      (waited : after.record Answered.waited? =
        kernel.record Answered.waited? ++ account.entry.processes)

/-- Recording a status leaves the jobs as they are. -/
theorem recordStatus_keeps {world : World Kernel} {fits : Call → Kernel → Prop}
    (status : Option Int) {post : Except Stop Unit → Session → Kernel → Prop}
    (reached : ∀ changed : Session, changed.jobs = session.jobs → post (.ok ()) changed kernel) :
    world.Achieves fits (Session.recordStatus status) session post kernel := by
  cases status with
  | none => exact reached session rfl
  | some status => exact reached { session with lastStatus := some status } rfl

theorem bringToForeground_takesOut (carries : session.jobs.Carries kernel.attempts listed)
    (wanted : Option Pid) {outlets : List Outlet} {outlet : Outlet} (heard : outlet ∈ outlets) :
    (Kernel.hearing Ending.IsTold outlets).Achieves (fun _ _ => True)
      (Session.bringToForeground wanted outlet) session
      (fun _ changed after => session.TakesOut kernel listed outlet changed after) kernel := by
  unfold Session.bringToForeground
  rw [achieves_bind, achieves_get, afterActivity_ok]
  cases taken : Session.takeJob session.jobs wanted with
  | error failure => exact .nothing carries rfl rfl rfl
  | ok result =>
      obtain ⟨entry, jobs⟩ := result
      obtain ⟨before, account, others, rfl, rfl, carriesLeft⟩ := carries.takeJob taken
      have known : account ∈ before ++ account :: others := by simp
      have named := carries.custody.isNamed known (carries.isOpen account known)
      have moved : (before ++ account :: others).Perm (account :: (before ++ others)) :=
        List.perm_middle
      -- While the job is waited for, it is in custody though it is no longer listed.
      have custody := carries.custody.perm moved
      dsimp only
      rw [achieves_bind, achieves_set, afterActivity_ok, achieves_bind, achieves_lift]
      have held := (custody.plain_grows (Action.write_isPlain outlet
        (account.entry.job.input ++ "\n"))).restrict (Kernel.Hears outlets)
      refine Ensures.mono (Ensures.and (write_hears heard fun _ _ => trivial) held) ?_
      rintro _ shown ⟨⟨rfl, written⟩, -, custodyShown, grown⟩
      rw [afterActivity_ok, achieves_bind, achieves_lift]
      have silent := account.entry.wait_isSilent.mono
        (fun _ allowed => Call.hidden_of_silent allowed outlet) fun _ _ => trivial
      have unheard := (silent.record_eq Ending.IsTold shown).restrict (Kernel.Hears outlets)
      have waits := (waitForProcesses_waits Ending.IsTold account.entry.lastStep
        account.entry.lastStatus account.entry.processes shown).restrict (Kernel.Hears outlets)
      have ages := (ensures_grows Ending.IsTold account.entry.wait.run shown).restrict
        (Kernel.Hears outlets)
      have settles := ((Entry.wait_safe custodyShown).fits_mono fun _ _ _ => trivial).restrict
        (Kernel.Hears outlets)
      refine Ensures.mono (Ensures.and (Ensures.and settles waits)
        (Ensures.and unheard ages)) ?_
      rintro outcome waited
        ⟨⟨⟨settled, rfl, job, empty, custodyWaited⟩, waitedFor⟩, ⟨-, unheardWaited⟩, aged⟩
      have grows : Grows kernel.attempts waited.attempts := grown.trans aged
      rw [afterActivity_ok]
      apply recordStatus_keeps
      intro changed sameJobs
      have finished : account.registration.Finished waited.attempts := by
        have all := custodyWaited.finished List.mem_cons_self empty
        unfold Account.registration at all ⊢
        rw [job] at all
        exact all
      have left := custodyWaited.sublist (List.sublist_cons_self _ _) (List.Sublist.refl [])
      apply Session.TakesOut.takes rfl _ finished (named.of_grows grows)
      · rw [unheardWaited, written.texts]
      · rw [waitedFor _ rfl, written.waited]
      · rw [sameJobs]
        exact carriesLeft.of_custody left

/-- When the session ends, every job leaves the registry and is told of. -/
theorem exit_tellsTerminated (carries : session.jobs.Carries kernel.attempts listed)
    {outlets : List Outlet} {outlet : Outlet} (heard : outlet ∈ outlets) :
    (Kernel.hearing Ending.IsTold outlets).Achieves (fun _ _ => True)
      (Session.exit outlet) session
      (fun _ changed after => changed.jobs.Carries after.attempts [] ∧
        Grows kernel.attempts after.attempts ∧
        after.record (Answered.text? outlet) = kernel.record (Answered.text? outlet) ++
          listed.map fun account => Session.jobNotice account.entry "Terminated") kernel := by
  unfold Session.exit
  rw [achieves_bind, achieves_get, afterActivity_ok]
  unfold Registry.drain
  dsimp only
  rw [achieves_bind, achieves_set, afterActivity_ok, achieves_bind, achieves_lift,
    ensures_run_lift]
  have released : Custody kernel.attempts [] [] :=
    carries.custody.sublist (List.nil_sublist listed) (List.Sublist.refl [])
  have there : ∀ pid ∈ session.jobs.entries.flatMap Entry.processes, pid ∈ kernel.uncollected := by
    intro pid member
    rw [carries.entries, List.flatMap_map] at member
    exact carries.custody.processes_mem_uncollected member
  have signals := ((signalJobs_safe released there).fits_mono fun _ _ _ => trivial).restrict
    (Kernel.Hears outlets)
  have silent := (signalJobs_isSilent session.jobs.entries).mono
    (fun _ allowed => Call.hidden_of_silent allowed outlet) fun _ _ => trivial
  have unheard := (silent.record_eq Ending.IsTold kernel).restrict (Kernel.Hears outlets)
  have ages := (ensures_grows Ending.IsTold (Session.signalJobs session.jobs.entries)
    kernel).restrict (Kernel.Hears outlets)
  refine Ensures.mono (Ensures.and (Ensures.and signals unheard) ages) ?_
  rintro _ signalled ⟨⟨custody, -, quiet⟩, aged⟩
  rw [afterActivity_ok, achieves_bind, achieves_lift]
  have held := (custody.plain_grows (Session.announceTerminated_isPlain outlet
    session.jobs.entries)).restrict (Kernel.Hears outlets)
  refine Ensures.mono (Ensures.and (announceTerminated_hears heard session.jobs.entries) held) ?_
  rintro _ after ⟨⟨rfl, written⟩, -, custodyAfter, grown⟩
  rw [afterActivity_ok, achieves_modify]
  refine ⟨⟨custodyAfter, rfl, by simp⟩, aged.trans grown, ?_⟩
  rw [written.texts, quiet, carries.entries, List.map_map]
  rfl

end JobControl
