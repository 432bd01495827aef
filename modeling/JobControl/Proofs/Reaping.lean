import JobControl.Proofs.Custody.Registered
import JobControl.Proofs.Waiting
/-!
# Reaping in custody

Each look at the children collects one that has ended, and no child is started meanwhile, so as
many looks as there are uncollected children, and one more, end with a look that finds none.  What
the notices say is noted in the registry, which then lists the jobs that are in custody after all
looks.
-/

namespace JobControl

open World

/-! ## Sweeps -/

theorem Kernel.calls_of_drifts {endings : Ending → Prop} {kernel after : Kernel}
    (drifts : (Kernel.world endings).Drifts kernel after) : after.calls = kernel.calls := by
  induction drifts with
  | refl => rfl
  | tail _ stirs inductionHypothesis =>
      rw [← inductionHypothesis]
      cases stirs with
      | childEnds _ _ => rfl
      | alarm => rfl

theorem Kernel.isSweeping_of_drifts {endings : Ending → Prop} {kernel after : Kernel}
    (drifts : (Kernel.world endings).Drifts kernel after) :
    after.isSweeping = kernel.isSweeping :=
  congrArg Kernel.sweeping (Kernel.calls_of_drifts drifts)

theorem Kernel.isSweeping_of_answers {endings : Ending → Prop} {kernel after : Kernel}
    {call : Call} {given : call.Answer} (apart : call.sweeps = false)
    (answers : (Kernel.world endings).answers call kernel given after) :
    after.isSweeping = kernel.isSweeping := by
  obtain ⟨answered, -, rfl⟩ := answers
  cases call with
  | takeFlag signal =>
      cases signal with
      | childEnded => cases apart
      | shutdown => rfl
  | lookAtChildren => cases apart
  | _ => rfl

/-- A program of safe calls neither begins nor ends a sweep. -/
theorem World.Ensures.calm {α : Type} {program : Program α} {post : α → Kernel → Prop}
    {kernel : Kernel} (ensured : Kernel.telling.Ensures Call.IsSafe program post kernel) :
    Kernel.telling.Ensures Call.IsSafe program
      (fun result after => post result after ∧ after.isSweeping = kernel.isSweeping) kernel := by
  induction program generalizing kernel with
  | done result =>
      exact ⟨ensured, rfl⟩
  | step call next inductionHypothesis =>
      intro asked drifts
      obtain ⟨safe, answered⟩ := ensured asked drifts
      refine ⟨safe, fun given after answers => ?_⟩
      refine (inductionHypothesis given (answered given after answers)).mono ?_
      rintro result last ⟨reached, same⟩
      have before : after.isSweeping = asked.isSweeping :=
        Kernel.isSweeping_of_answers safe.2 answers
      exact ⟨reached, same.trans (before.trans (Kernel.isSweeping_of_drifts drifts))⟩

/-! ## Looks -/

/-- Looks that are enough end with one that finds no child, and what they bring is noted. -/
theorem lookAtChildren_reaps {looks : Nat} {registry : Registry} {accounts : List Account}
    {kernel : Kernel} (held : registry.InCustody kernel.attempts accounts)
    (enough : kernel.uncollected.length + kernel.interruptions < looks) :
    Kernel.telling.Ensures Call.NamesUncollected (lookAtChildren looks)
      (fun notices after => (collect registry notices).2.CarriesOn after.attempts accounts ∧
        after.isSweeping = false) kernel := by
  induction looks generalizing registry accounts kernel with
  | zero => exact absurd enough (Nat.not_lt_zero _)
  | succ looks inductionHypothesis =>
      have askedCustody : ∀ asked : Kernel, Kernel.telling.Drifts kernel asked →
          Custody asked.attempts accounts [] := fun asked drifts => held.custody.of_drifts drifts
      have left : ∀ asked : Kernel, Kernel.telling.Drifts kernel asked →
          asked.uncollected.length + asked.interruptions < looks + 1 := by
        intro asked drifts
        rw [Kernel.uncollected_of_drifts drifts, Kernel.interruptions_of_drifts drifts]
        exact enough
      refine lookAtChildren_ensures (fun _ _ => trivial) ?_ ?_ ?_
      · intro asked pid ending turned drifts turns
        have inCustody := askedCustody asked drifts
        obtain ⟨attempt, known, lived⟩ := turns.exists_mem
        have told : ending.IsTold := inCustody.orderly.endings attempt known pid ending lived
        have collected : Custody turned (accounts.map (Account.reaped pid ending.status)) [] :=
          inCustody.of_collecting turns
        have distinct : (processesOf accounts).Nodup := by
          have all := inCustody.distinct
          rwa [List.append_nil] at all
        have noted := held.lists.markReaped distinct pid ending.status
        -- One child less is left, so that one look less is enough.
        have fewer : (uncollectedOf turned).length + asked.interruptions < looks := by
          have one := turns.uncollected_perm.length_eq
          have all := left asked drifts
          rw [List.length_cons] at one
          unfold Kernel.uncollected at all
          omega
        rw [if_pos told.hasName, ensures_bind]
        refine Ensures.mono (inductionHypothesis ⟨collected, noted⟩ fewer) ?_
        rintro notices last ⟨carried, calm⟩
        exact ⟨carried.trans (Keeps.reaped accounts pid ending.status), calm⟩
      · intro asked given drifts _ nothing
        refine ⟨Registry.InCustody.carriesOn ⟨askedCustody asked drifts, held.lists⟩, ?_⟩
        exact if_pos nothing
      · intro asked drifts some
        refine inductionHypothesis ⟨askedCustody asked drifts, held.lists⟩ ?_
        have all := left asked drifts
        change asked.uncollected.length + (asked.interruptions - 1) < looks
        omega

theorem reapChildren_reaps {registry : Registry} {accounts : List Account} {kernel : Kernel}
    (held : registry.InCustody kernel.attempts accounts) :
    Kernel.telling.Ensures Call.NamesUncollected (reapChildren registry)
      (fun result after => result.2.CarriesOn after.attempts accounts ∧
        after.isSweeping = false) kernel := by
  unfold reapChildren
  rw [ensures_bind, ensures_ask]
  intro asked drifts
  refine ⟨trivial, ?_⟩
  rintro looks after ⟨answered, ⟨again, bounded, rfl⟩, rfl⟩
  have inCustody : Custody asked.attempts accounts [] := held.custody.of_drifts drifts
  rw [ensures_bind]
  refine Ensures.mono (lookAtChildren_reaps ⟨inCustody, held.lists⟩ (Nat.lt_succ_of_le bounded)) ?_
  exact fun notices last reached => reached

end JobControl
