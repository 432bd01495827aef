import JobControl.Proofs.InputEnds
import JobControl.Proofs.Starting
import JobControl.Proofs.Registry.Batch
/-!
# Ways of dying

A child may exit with any code or be killed by any signal, and both ways of collecting it, the wait
for it and the sweep over all children, give its status the same number.  This holds of endings that
have a name.  The signals above the last named one have none: the system collects a child that such
a signal killed and then refuses to tell of it, so that the wait fails, for good, and the sweep
stops, with the child still in its entry and the other ended children left where they are.
-/

namespace JobControl

open Relation World

/-! ## Endings with a name -/

/-- What a sweep says of a child that ended, or that it failed over it. -/
def noticeOf (pid : Pid) (ending : Ending) : ChildNotice :=
  if ending.hasName then .ended pid ending else .failed .invalidArgument

/-! ## While children end -/

section Ages

variable {endings : Ending → Prop}

private theorem Turns.mem_after {old new : Life} {attempts turned : List Attempt}
    {attempt : Attempt} (turns : Turns old new attempts turned) (member : attempt ∈ attempts)
    (other : attempt.life ≠ old) : attempt ∈ turned := by
  induction turns with
  | here lived =>
      rcases List.mem_cons.1 member with rfl | later
      · exact absurd lived other
      · exact List.mem_cons_of_mem _ later
  | later _ inductionHypothesis =>
      rcases List.mem_cons.1 member with rfl | later
      · exact List.mem_cons_self
      · exact List.mem_cons_of_mem _ (inductionHypothesis later)

/-- A child that has ended stays as it is while others end. -/
theorem Ages.mem_of_ended {table aged : List Attempt} {attempt : Attempt} {pid : Pid}
    {ending : Ending} (ages : Ages endings table aged) (member : attempt ∈ table)
    (lived : attempt.life = .ended pid ending) : attempt ∈ aged := by
  induction ages with
  | refl => exact member
  | tail _ turned inductionHypothesis =>
      obtain ⟨other, how, -, turns⟩ := turned
      exact turns.mem_after inductionHypothesis (by simp [lived])

end Ages

/-! ## Waiting -/

/-- A wait for a child collects it, however it ends and whatever interrupts the wait; it fails if
and only if the ending has no name. -/
theorem waitFor_brings {endings : Ending → Prop} {kernel : Kernel} {pid : Pid}
    (there : pid ∈ kernel.uncollected) :
    (Kernel.world endings).Ensures (fun _ _ => True) (waitFor pid).run
      (fun outcome after => ∃ ending table,
        Ages endings kernel.attempts table ∧
          Turns (.ended pid ending) (.collected pid ending) table after.attempts ∧
          outcome =
            if ending.hasName then .ok ending.status
            else .error (.failure (.waitFailed pid.number))) kernel := by
  refine waitFor_ensures (fun _ _ => trivial) (fun _ _ => trivial) ?_ ?_
  · intro asked ending turned lingers turns
    exact ⟨ending, asked.attempts, lingers.ages, turns, rfl⟩
  · exact fun _ _ absent => absurd there absent

section Again

variable {endings : Ending → Prop} {pid : Pid} {ending : Ending} {turned : List Attempt}

/-- What follows the answer to a wait is what its run comes to. -/
theorem waitTimes_comes {waits : Nat} {kernel answered after : Kernel} {outcome : Except Stop Int}
    {given : Except Errno ChildChange}
    (answers : (Kernel.world endings).answers (.wait pid) kernel given answered)
    (rest : (Kernel.world endings).Comes
      (match waitResult? pid given with
        | some result => ExceptT.mk (pure result)
        | none => waitTimes pid waits).run answered outcome after) :
    (Kernel.world endings).Comes (waitTimes pid (waits + 1)).run kernel outcome after := by
  rw [waitTimes, comes_run_bind_iff]
  exact .inl ⟨given, answered, Leads.answer given answers ReflTransGen.refl, rest⟩

/-- Waits for a child that has ended may be cut short as often as was told, and then the child is
collected. -/
theorem exists_waits {kernel : Kernel}
    (turns : Turns (.ended pid ending) (.collected pid ending) kernel.attempts turned)
    {cut : List (Except Errno ChildChange)} (again : ∀ given ∈ cut, waitResult? pid given = none)
    (told : kernel.interruptions = cut.length) :
    ∃ outcome after,
      (Kernel.world endings).Comes (waitTimes pid (cut.length + 1)).run kernel outcome after ∧
        after.attempts = turned ∧ after.calls.map Answered.call =
          List.replicate (cut.length + 1) (.wait pid) ++ kernel.calls.map Answered.call := by
  induction cut generalizing kernel with
  | nil =>
      let collected : Kernel := { kernel with
        attempts := turned
        calls := ⟨.wait pid, Kernel.told ending⟩ :: kernel.calls }
      have collects : (Kernel.world endings).answers (.wait pid) kernel (Kernel.told ending)
          collected :=
        ⟨_, .inl ⟨ending, turned, turns, rfl, rfl⟩, rfl⟩
      have run : (Kernel.world endings).Comes (waitTimes pid 1).run kernel
          (if ending.hasName then .ok ending.status
            else .error (.failure (.waitFailed pid.number))) collected := by
        refine waitTimes_comes collects ?_
        rw [waitResult?_told]
        exact ReflTransGen.refl
      exact ⟨_, collected, run, rfl, rfl⟩
  | cons given rest inductionHypothesis =>
      obtain ⟨first, others⟩ := List.forall_mem_cons.1 again
      let next : Kernel := { kernel with
        interruptions := kernel.interruptions - 1
        calls := ⟨.wait pid, given⟩ :: kernel.calls }
      have fewer : next.interruptions = rest.length := by
        change kernel.interruptions - 1 = rest.length
        rw [told, List.length_cons, Nat.add_sub_cancel]
      have some : 0 < kernel.interruptions := told ▸ Nat.succ_pos rest.length
      have cutShort : (Kernel.world endings).answers (.wait pid) kernel given next :=
        ⟨_, .inr (.inr ⟨first, some, rfl⟩), rfl⟩
      obtain ⟨outcome, after, run, attempts, calls⟩ :=
        inductionHypothesis (show Turns _ _ next.attempts turned from turns) others fewer
      refine ⟨outcome, after, waitTimes_comes cutShort ?_, attempts, ?_⟩
      · rw [first]
        exact run
      · rw [calls, List.replicate_succ' (n := (given :: rest).length), List.append_assoc]
        rfl

/-- A child that has ended can be waited for, whatever interrupts the wait. -/
theorem exists_wait {kernel : Kernel}
    (turns : Turns (.ended pid ending) (.collected pid ending) kernel.attempts turned)
    {cut : List (Except Errno ChildChange)}
    (again : ∀ given ∈ cut, waitResult? pid given = none) :
    ∃ outcome after, (Kernel.world endings).Comes (waitFor pid).run kernel outcome after ∧
      after.attempts = turned ∧
      after.calls.map Answered.call = List.replicate (cut.length + 1) (.wait pid) ++
        .bound .waits :: kernel.calls.map Answered.call := by
  let asked : Kernel := { kernel with
    interruptions := cut.length
    calls := ⟨.bound .waits, cut.length⟩ :: kernel.calls }
  obtain ⟨outcome, after, run, attempts, calls⟩ :=
    exists_waits (show Turns _ _ asked.attempts turned from turns) again rfl
  exact ⟨outcome, after, Leads.answer cut.length ⟨_, rfl, rfl⟩ run, attempts, calls⟩

end Again

/-! ## Sweeping -/

/-- Children that ended, in the order in which they were collected, with how they ended. -/
abbrev Ends : Type :=
  List (Pid × Ending)

/-- What collected children tell the registry: nothing more from the first one without a name. -/
def Ends.batch (ends : Ends) : Batch :=
  (ends.takeWhile fun ended => ended.2.hasName).map fun ended => (ended.1, ended.2.status)

def Ends.notices (ends : Ends) : List ChildNotice :=
  ends.map fun ended => noticeOf ended.1 ended.2

/-- A sweep over a table collects children until none waits, or until one has an ending without a
name.  Others may end meanwhile. -/
inductive Sweeps (endings : Ending → Prop) : List Attempt → Ends → List Attempt → Prop
  | done {table aged : List Attempt} :
      Ages endings table aged →
      (aged.any fun attempt => attempt.life.isWaiting) = false →
      Sweeps endings table [] aged
  | stops {table aged left : List Attempt} {pid : Pid} {ending : Ending} :
      Ages endings table aged →
      Turns (.ended pid ending) (.collected pid ending) aged left →
      ending.hasName = false →
      Sweeps endings table [(pid, ending)] left
  | goesOn {table aged left swept : List Attempt} {pid : Pid} {ending : Ending} {ends : Ends} :
      Ages endings table aged →
      Turns (.ended pid ending) (.collected pid ending) aged left →
      ending.hasName = true →
      Sweeps endings left ends swept →
      Sweeps endings table ((pid, ending) :: ends) swept

namespace Sweeps

variable {endings : Ending → Prop} {table aged swept : List Attempt} {ends : Ends}

theorem of_ages (ages : Ages endings table aged) (sweeps : Sweeps endings aged ends swept) :
    Sweeps endings table ends swept := by
  cases sweeps with
  | done later none => exact .done (ages.trans later) none
  | stops later turns nameless => exact .stops (ages.trans later) turns nameless
  | goesOn later turns named rest => exact .goesOn (ages.trans later) turns named rest

/-- Only the last of the collected children may have an ending without a name. -/
theorem named_or_last (sweeps : Sweeps endings table ends swept) :
    (∀ ended ∈ ends, ended.2.hasName = true) ∨
      ∃ earlier last, ends = earlier ++ [last] ∧ last.2.hasName = false ∧
        ∀ ended ∈ earlier, ended.2.hasName = true := by
  induction sweeps with
  | done _ _ => exact .inl (by simp)
  | stops _ _ nameless => exact .inr ⟨[], _, rfl, nameless, by simp⟩
  | goesOn _ _ named _ inductionHypothesis =>
      obtain all | ⟨earlier, last, rfl, nameless, others⟩ := inductionHypothesis
      · exact .inl (List.forall_mem_cons.2 ⟨named, all⟩)
      · exact .inr ⟨_ :: earlier, last, rfl, nameless, List.forall_mem_cons.2 ⟨named, others⟩⟩

/-- A sweep in which every ending has a name collects all children that had ended before it. -/
theorem mem_of_ended (sweeps : Sweeps endings table ends swept)
    (named : ∀ ended ∈ ends, ended.2.hasName = true) {attempt : Attempt} {pid : Pid}
    {ending : Ending} (member : attempt ∈ table) (lived : attempt.life = .ended pid ending) :
    (pid, ending) ∈ ends := by
  induction sweeps with
  | done ages none =>
      have waits := List.any_eq_false.1 none attempt (ages.mem_of_ended member lived)
      simp [lived, Life.isWaiting] at waits
  | stops _ _ nameless => simp [nameless] at named
  | @goesOn _ aged _ _ other how _ ages turns _ _ inductionHypothesis =>
      have still := ages.mem_of_ended member lived
      by_cases same : attempt.life = .ended other how
      · cases lived.symm.trans same
        exact List.mem_cons_self
      · have later := inductionHypothesis (List.forall_mem_cons.1 named).2
          (turns.mem_after still same)
        exact List.mem_cons_of_mem _ later

/-- A sweep finds endings that occur. -/
theorem occurs (sweeps : Sweeps endings table ends swept) (orderly : Orderly endings table) :
    ∀ ended ∈ ends, endings ended.2 := by
  have found : ∀ {table aged left : List Attempt} {pid : Pid} {ending : Ending},
      Orderly endings table → Ages endings table aged →
      Turns (.ended pid ending) (.collected pid ending) aged left →
      endings ending ∧ Orderly endings left := by
    intro table aged left pid ending orderly ages turns
    have orderlyAged := orderly.of_ages ages
    obtain ⟨attempt, member, lived⟩ := turns.exists_mem
    exact ⟨orderlyAged.endings attempt member pid ending lived,
      orderlyAged.of_moves (.collects turns)⟩
  induction sweeps with
  | done _ _ => simp
  | stops ages turns _ => simpa using (found orderly ages turns).1
  | goesOn ages turns _ _ inductionHypothesis =>
      obtain ⟨occurred, left⟩ := found orderly ages turns
      exact List.forall_mem_cons.2 ⟨occurred, inductionHypothesis left⟩

end Sweeps

private theorem Ends.reapedBy_notices (ends : Ends) : reapedBy ends.notices = ends.batch := by
  induction ends with
  | nil => rfl
  | cons ended rest inductionHypothesis =>
      obtain ⟨pid, ending⟩ := ended
      unfold reapedBy Ends.notices Ends.batch at inductionHypothesis ⊢
      rw [List.map_cons]
      by_cases named : ending.hasName = true
      · have tells : (ChildNotice.ended pid ending).isFailure = false := rfl
        have reaped : (ChildNotice.ended pid ending).reaped? = some (pid, ending.status) := rfl
        rw [noticeOf, if_pos named]
        simp [tells, reaped, named, inductionHypothesis]
      · have nameless : ending.hasName = false := by simpa using named
        have fails : (ChildNotice.failed .invalidArgument).isFailure = true := rfl
        rw [noticeOf, if_neg named]
        simp [fails, nameless]

section Looks

variable {endings : Ending → Prop} {kernel : Kernel}

private theorem lookAtChildren_sweeps {looks : Nat}
    (enough : kernel.uncollected.length + kernel.interruptions < looks) :
    (Kernel.world endings).Ensures (fun _ _ => True) (lookAtChildren looks)
      (fun notices after => ∃ ends : Ends,
        Sweeps endings kernel.attempts ends after.attempts ∧ notices = ends.notices) kernel := by
  induction looks generalizing kernel with
  | zero => exact absurd enough (Nat.not_lt_zero _)
  | succ looks inductionHypothesis =>
      have left : ∀ asked : Kernel, (Kernel.world endings).Drifts kernel asked →
          asked.uncollected.length + asked.interruptions < looks + 1 := by
        intro asked drifts
        rw [Kernel.uncollected_of_drifts drifts, Kernel.interruptions_of_drifts drifts]
        exact enough
      refine lookAtChildren_ensures (fun _ _ => trivial) ?_ ?_ ?_
      · intro asked pid ending turned drifts turns
        have ages := Kernel.ages_of_drifts drifts
        by_cases named : ending.hasName = true
        · -- One child less is left, so that one look less is enough.
          have fewer : (uncollectedOf turned).length + asked.interruptions < looks := by
            have one := turns.uncollected_perm.length_eq
            have all := left asked drifts
            unfold Kernel.uncollected at all
            rw [List.length_cons] at one
            omega
          rw [if_pos named, ensures_bind]
          refine Ensures.mono (inductionHypothesis ?_) ?_
          · exact fewer
          · rintro notices last ⟨ends, sweeps, rfl⟩
            refine ⟨(pid, ending) :: ends, .goesOn ages turns named sweeps, ?_⟩
            simp [Ends.notices, noticeOf, named]
        · have nameless : ending.hasName = false := by simpa using named
          rw [if_neg named]
          refine ⟨[(pid, ending)], .stops ages turns nameless, ?_⟩
          simp [Ends.notices, noticeOf, nameless]
      · intro asked given drifts none _
        have ages := Kernel.ages_of_drifts drifts
        exact ⟨[], .done ages none, rfl⟩
      · intro asked drifts some
        refine Ensures.mono (inductionHypothesis ?_) ?_
        · have all := left asked drifts
          change asked.uncollected.length + (asked.interruptions - 1) < looks
          omega
        · rintro notices last ⟨ends, sweeps, rfl⟩
          exact ⟨ends, sweeps.of_ages (Kernel.ages_of_drifts drifts), rfl⟩

private theorem reapChildren_sweeps (registry : Registry) :
    (Kernel.world endings).Ensures (fun _ _ => True) (reapChildren registry)
      (fun result after => ∃ ends : Ends,
        Sweeps endings kernel.attempts ends after.attempts ∧
          result = registry.markAll ends.batch) kernel := by
  unfold reapChildren
  rw [ensures_bind, ensures_ask]
  intro asked drifts
  refine ⟨trivial, ?_⟩
  rintro looks after ⟨answered, ⟨again, bounded, rfl⟩, rfl⟩
  rw [ensures_bind]
  refine Ensures.mono (lookAtChildren_sweeps ?_) ?_
  · exact Nat.lt_succ_of_le bounded
  rintro notices last ⟨ends, sweeps, rfl⟩
  refine ⟨ends, sweeps.of_ages (Kernel.ages_of_drifts drifts), ?_⟩
  rw [Registry.collect_eq_markAll, ends.reapedBy_notices]

/-- Where the flag is set, acting on signals sweeps over the children and notes what they tell; what
comes after that changes nothing about them. -/
theorem processSignals_sweeps_table (session : Session) (wanted : kernel.reapWanted = true) :
    (Kernel.world endings).Achieves (fun _ _ => True) Session.processSignals session
      (fun _ changed after => ∃ (ends : Ends) (swept : List Attempt),
        Sweeps endings kernel.attempts ends swept ∧ Ages endings swept after.attempts ∧
          changed = { session with jobs := (session.jobs.markAll ends.batch).2 }) kernel := by
  unfold Session.processSignals
  rw [achieves_bind, achieves_lift, ensures_run_ask]
  intro asked drifts
  refine ⟨trivial, ?_⟩
  rintro taken after ⟨answered, ⟨flag, rfl⟩, rfl⟩
  obtain rfl : taken = true := flag.trans ((Kernel.Lingers.of_drifts drifts).wanted wanted)
  rw [afterActivity_ok]
  dsimp only
  rw [if_pos rfl, achieves_bind, achieves_get, afterActivity_ok, achieves_bind, achieves_lift,
    ensures_run_lift]
  refine (reapChildren_sweeps session.jobs).mono ?_
  rintro result reaped ⟨ends, sweeps, rfl⟩
  have swept := sweeps.of_ages (Kernel.ages_of_drifts drifts)
  rw [afterActivity_ok, achieves_bind, achieves_set, afterActivity_ok, achieves_bind,
    achieves_lift]
  refine (Program.Within.ages (Session.announceDone_isPlain _) ReflTransGen.refl).mono ?_
  rintro (stop | _) told ⟨-, ages⟩
  · exact ⟨ends, _, swept, ages, rfl⟩
  · rw [afterActivity_ok]
    refine Ensures.mono (Program.Within.ages (Session.tellShutdown_within _) ages) ?_
    rintro ⟨outcome, changed⟩ last ⟨⟨-, rfl⟩, later⟩
    exact ⟨ends, _, swept, later, rfl⟩

end Looks

/-! ## Both ways of collecting a child -/

/-- A child that is waited for gives the number of its ending, and so does one that a sweep finds,
whatever interrupts the wait and whatever else ends meanwhile; a sweep leaves no child that had
ended, and its entries lose the collected processes.  All this ends at the first child that was
killed by a signal without a name. -/
theorem waits_and_sweeps_account_for_named_endings (endings : Ending → Prop) (kernel : Kernel) :
    (∀ pid ∈ kernel.uncollected,
      (Kernel.world endings).Ensures (fun _ _ => True) (waitFor pid).run
        (fun outcome after => ∃ ending table,
          Ages endings kernel.attempts table ∧
            Turns (.ended pid ending) (.collected pid ending) table after.attempts ∧
            outcome =
              if ending.hasName then .ok ending.status
              else .error (.failure (.waitFailed pid.number))) kernel) ∧
    ∀ session : Session, kernel.reapWanted = true → Registry.IsKeyed session.jobs.entries →
      (Kernel.world endings).Achieves (fun _ _ => True) Session.processSignals session
        (fun _ changed after => ∃ (ends : Ends) (swept : List Attempt) (completed : List Entry),
          Sweeps endings kernel.attempts ends swept ∧ Ages endings swept after.attempts ∧
            changed = { session with jobs := changed.jobs } ∧
            session.jobs.ReapsBatch ends.batch completed changed.jobs ∧
            ((∀ attempt ∈ kernel.attempts, ∀ pid ending, attempt.life = .ended pid ending →
                (pid, ending) ∈ ends) ∧ (∀ ended ∈ ends, ended.2.hasName = true) ∨
              ∃ earlier last, ends = earlier ++ [last] ∧ last.2.hasName = false ∧
                ∀ ended ∈ earlier, ended.2.hasName = true)) kernel := by
  refine ⟨fun pid there => waitFor_brings there, fun session wanted keyed => ?_⟩
  refine (processSignals_sweeps_table session wanted).mono ?_
  rintro outcome changed after ⟨ends, swept, sweeps, ages, rfl⟩
  refine ⟨ends, swept, _, sweeps, ages, rfl,
    Registry.markAll_reapsBatch keyed ends.batch, ?_⟩
  obtain named | stopped := sweeps.named_or_last
  · exact .inl ⟨fun attempt member pid ending => sweeps.mem_of_ended named member, named⟩
  · exact .inr stopped

/-- Two children that have ended. -/
def twoEnded (first second : Ending) : Kernel where
  attempts :=
    [⟨{ program := "sleep", arguments := [] }, .own, .own, .own, [], .ended ⟨7⟩ first⟩,
      ⟨{ program := "true", arguments := [] }, .own, .own, .own, [], .ended ⟨8⟩ second⟩]
  reapWanted := true

private theorem watching_isKeyed : Registry.IsKeyed watching.jobs.entries where
  named := by
    intro entry listed
    obtain rfl := List.mem_singleton.1 listed
    rfl
  distinct := by decide

/-- Where all endings have names, a session with a job in the background learns of the end of its
process, and of that of the other child, by one sweep; a wait for either may be answered too. -/
theorem waits_and_sweeps_account_for_two :
    let named : Ending → Prop := fun ending => ending.hasName = true
    let kernel := twoEnded (.exited 3) (.killed 9)
    (⟨7⟩ : Pid) ∈ kernel.uncollected ∧ kernel.reapWanted = true ∧
      Registry.IsKeyed watching.jobs.entries ∧
      (∃ outcome after status, (Kernel.world named).Comes (waitFor ⟨7⟩).run kernel outcome after ∧
        outcome = .ok status) ∧
      (Kernel.world named).Achieves (fun _ _ => True) Session.processSignals watching
        (fun _ changed _ => ∃ (ends : Ends) (completed : List Entry),
          (⟨7⟩, .exited 3) ∈ ends ∧ (⟨8⟩, .killed 9) ∈ ends ∧
            watching.jobs.ReapsBatch ends.batch completed changed.jobs) kernel := by
  intro named kernel
  have there : (⟨7⟩ : Pid) ∈ kernel.uncollected := by decide
  obtain ⟨waits, sweeps⟩ := waits_and_sweeps_account_for_named_endings named kernel
  have orderly : Orderly named kernel.attempts := by
    refine ⟨by decide, fun attempt member pid ending lived => ?_⟩
    obtain rfl | rfl : attempt = _ ∨ attempt = _ := by simpa [kernel, twoEnded] using member
    · cases lived
      rfl
    · cases lived
      rfl
  refine ⟨there, rfl, watching_isKeyed, ?_, ?_⟩
  · have turns : Turns (.ended ⟨7⟩ (.exited 3)) (.collected ⟨7⟩ (.exited 3)) kernel.attempts _ :=
      .here rfl
    have again : ∀ given ∈ [.error .interrupted, .ok ChildChange.stopped],
        waitResult? ⟨7⟩ given = none := by simp [waitResult?]
    obtain ⟨outcome, after, run, -, -⟩ := exists_wait turns again
    obtain ⟨_, -, ending, table, ages, collects, brought⟩ := (waits ⟨7⟩ there).result run
    obtain ⟨attempt, member, lived⟩ := collects.exists_mem
    have occurred := (orderly.of_ages ages).endings attempt member _ _ lived
    exact ⟨outcome, after, ending.status, run, brought.trans (if_pos occurred)⟩
  · refine (sweeps watching rfl watching_isKeyed).mono ?_
    rintro outcome changed after ⟨ends, swept, completed, swept', -, -, reaps, all | broken⟩
    · exact ⟨ends, completed, all.1 _ List.mem_cons_self _ _ rfl,
        all.1 _ (List.mem_cons_of_mem _ List.mem_cons_self) _ _ rfl, reaps⟩
    · obtain ⟨earlier, last, rfl, nameless, -⟩ := broken
      have occurred := swept'.occurs orderly last (by simp)
      simp [named, nameless] at occurred

/-- It is not so that a wait for a child always brings a status, nor that a sweep leaves no child
that had ended and takes its number out of the entries: both may come to a child that was killed by
a signal without a name. -/
theorem real_time_signal_is_not_accounted_for :
    (¬∀ (kernel after : Kernel) (pid : Pid) (outcome : Except Stop Int),
      pid ∈ kernel.uncollected →
      (Kernel.world fun _ => True).Comes (waitFor pid).run kernel outcome after →
        ∃ status, outcome = .ok status) ∧
    ¬∀ (session changed : Session) (kernel after : Kernel) (outcome : Except Stop Unit),
      kernel.reapWanted = true → Registry.IsKeyed session.jobs.entries →
      (Kernel.world fun _ => True).Performs Session.processSignals (session, kernel) outcome
        (changed, after) →
        ∀ attempt ∈ kernel.attempts, ∀ pid ending, attempt.life = .ended pid ending →
          pid ∉ after.uncollected ∧ ∀ entry ∈ changed.jobs.entries, pid ∉ entry.processes := by
  let kernel := twoEnded (.killed 34) (.exited 0)
  refine ⟨fun brings => ?_, fun sweeps => ?_⟩
  · have fails : ∃ after, (Kernel.world fun _ => True).Comes (waitFor ⟨7⟩).run kernel
        (.error (.failure (.waitFailed 7))) after :=
      ⟨_, Leads.answer (0 : Nat) ⟨_, rfl, rfl⟩ <| Leads.answer (.error .invalidArgument)
        ⟨_, .inl ⟨.killed 34, _, .here rfl, rfl, rfl⟩, rfl⟩ ReflTransGen.refl⟩
    obtain ⟨after, run⟩ := fails
    obtain ⟨status, broken⟩ := brings kernel after ⟨7⟩ _ (by decide) run
    cases broken
  · -- The first look comes to the child that was killed, and no other look is made.
    have stops : ∃ after, (Kernel.world fun _ => True).Performs Session.processSignals
        (watching, kernel) (.ok ()) (watching, after) ∧ after.uncollected = [⟨8⟩] := by
      apply Exists.intro
      apply And.intro
      · refine Leads.answer true ⟨_, ⟨rfl, rfl⟩, rfl⟩ ?_
        refine Leads.answer (2 : Nat) ⟨_, ⟨0, by decide, rfl⟩, rfl⟩ ?_
        refine Leads.answer (.error .invalidArgument)
          ⟨_, .inl ⟨⟨7⟩, .killed 34, _, .here rfl, rfl, rfl⟩, rfl⟩ ?_
        refine Leads.answer false ⟨_, rfl, rfl⟩ ?_
        exact ReflTransGen.refl
      · rfl
    obtain ⟨after, run, left⟩ := stops
    obtain ⟨collected, -⟩ := sweeps watching watching kernel after _ rfl watching_isKeyed run
      _ (List.mem_cons_of_mem _ List.mem_cons_self) ⟨8⟩ (.exited 0) rfl
    exact collected (by rw [left]; exact List.mem_cons_self)

end JobControl
