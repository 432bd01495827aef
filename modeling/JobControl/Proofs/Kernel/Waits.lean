import JobControl.Proofs.Kernel.Attempts
import JobControl.Proofs.World.Activity
/-!
# Waits and looks that are made again

A wait that a signal interrupts, or that tells of a child that only stopped or went on, is made
again.  What is said of such a loop is said here once: in any world from what a single wait keeps
and brings, and in the kernel from the one wait that is not cut short.  Before the session waits it
is told how often waits may be cut short, so the loop never runs out of waits there.  A look that is
interrupted is made again too; what is said of looks is said of one look and of those after it.
-/

namespace JobControl

open Relation World

/-! ## In any world -/

/-- A condition that waits keep while they are made again, and that each of them needs, brings about
what is wanted when a wait brings something, or when no wait is left. -/
theorem waitTimes_ensures {σ : Type} {world : World σ} {fits : Call → σ → Prop} {pid : Pid}
    {post : Except Stop Int → σ → Prop} {holds : Nat → σ → Prop}
    (drifts : ∀ left before after, world.Drifts before after → holds left before →
      holds left after)
    (fit : ∀ left state, holds (left + 1) state → fits (.wait pid) state)
    (again : ∀ left before given after, world.answers (.wait pid) before given after →
      waitResult? pid given = none → holds (left + 1) before → holds left after)
    (brings : ∀ left before given after result, world.answers (.wait pid) before given after →
      waitResult? pid given = some result → holds (left + 1) before → post result after)
    (ends : ∀ state, holds 0 state → post (.error (.failure (.waitFailed pid.number))) state)
    {left : Nat} {state : σ} (initially : holds left state) :
    world.Ensures fits (waitTimes pid left).run post state := by
  induction left generalizing state with
  | zero => exact ends state initially
  | succ left inductionHypothesis =>
      rw [waitTimes, ensures_run_bind, ensures_run_ask]
      intro asked drift
      have still := drifts _ _ _ drift initially
      refine ⟨fit left asked still, fun given after answers => ?_⟩
      rw [afterAction_ok]
      cases brought : waitResult? pid given with
      | none => exact inductionHypothesis (again _ _ _ _ answers brought still)
      | some result => exact brings _ _ _ _ _ answers brought still

/-! ## While time passes -/

/-- Some children of a table have ended, in ways that occur. -/
def Ages (endings : Ending → Prop) : List Attempt → List Attempt → Prop :=
  ReflTransGen fun before after =>
    ∃ pid ending, endings ending ∧ Turns (.running pid) (.ended pid ending) before after

theorem Ages.uncollected_eq {endings : Ending → Prop} {before after : List Attempt}
    (ages : Ages endings before after) : uncollectedOf after = uncollectedOf before := by
  induction ages with
  | refl => rfl
  | tail _ turned inductionHypothesis =>
      obtain ⟨pid, ending, -, turns⟩ := turned
      exact (turns.uncollected_eq rfl).trans inductionHypothesis

theorem Orderly.of_ages {endings : Ending → Prop} {table aged : List Attempt}
    (orderly : Orderly endings table) (ages : Ages endings table aged) : Orderly endings aged := by
  induction ages with
  | refl => exact orderly
  | tail _ turned inductionHypothesis =>
      obtain ⟨pid, ending, occurs, turns⟩ := turned
      exact inductionHypothesis.of_moves (.ends occurs turns)

/-- An answer that says nothing of any child: how often waits may be cut short, or a wait that is
made again. -/
inductive Answered.IsIdle : Answered → Prop
  | told (again : Nat) : IsIdle ⟨.bound .waits, again⟩
  | cutShort {pid : Pid} {given : Except Errno ChildChange} :
      waitResult? pid given = none → IsIdle ⟨.wait pid, given⟩

namespace Kernel

variable {endings : Ending → Prop}

theorem interruptions_of_drifts {before after : Kernel}
    (drifts : (world endings).Drifts before after) :
    after.interruptions = before.interruptions := by
  induction drifts with
  | refl => rfl
  | tail _ stirs inductionHypothesis =>
      rw [← inductionHypothesis]
      cases stirs with
      | childEnds _ _ => rfl
      | alarm => rfl

/-- What the kernel may have come to while a wait goes on. -/
structure Lingers (endings : Ending → Prop) (before after : Kernel) : Prop where
  ages : Ages endings before.attempts after.attempts
  handles : after.handles = before.handles
  pipes : after.pipes = before.pipes
  wanted : before.reapWanted = true → after.reapWanted = true
  calls : ∃ idle : List Answered, after.calls = idle ++ before.calls ∧
    ∀ answered ∈ idle, answered.IsIdle

namespace Lingers

theorem refl (kernel : Kernel) : Lingers endings kernel kernel :=
  ⟨ReflTransGen.refl, rfl, rfl, id, [], rfl, by simp⟩

theorem trans {first second third : Kernel} (left : Lingers endings first second)
    (right : Lingers endings second third) : Lingers endings first third where
  ages := left.ages.trans right.ages
  handles := right.handles.trans left.handles
  pipes := right.pipes.trans left.pipes
  wanted := right.wanted ∘ left.wanted
  calls := by
    obtain ⟨earlier, before, idle⟩ := left.calls
    obtain ⟨later, after, alsoIdle⟩ := right.calls
    refine ⟨later ++ earlier, by rw [after, before, List.append_assoc], fun answered member => ?_⟩
    rcases List.mem_append.1 member with inLater | inEarlier
    · exact alsoIdle answered inLater
    · exact idle answered inEarlier

theorem of_stirs {before after : Kernel} (stirs : Stirs endings before after) :
    Lingers endings before after := by
  cases stirs with
  | childEnds occurs turns =>
      exact ⟨ReflTransGen.single ⟨_, _, occurs, turns⟩, rfl, rfl, fun _ => rfl, [], rfl, by simp⟩
  | alarm => exact ⟨ReflTransGen.refl, rfl, rfl, fun _ => rfl, [], rfl, by simp⟩

theorem of_drifts {before after : Kernel} (drifts : (world endings).Drifts before after) :
    Lingers endings before after := by
  induction drifts with
  | refl => exact refl before
  | tail _ stirs inductionHypothesis => exact inductionHypothesis.trans (of_stirs stirs)

private theorem of_idle {answered : Answered} (idle : answered.IsIdle) (before : Kernel)
    (interruptions : Nat) :
    Lingers endings before
      { before with interruptions := interruptions, calls := answered :: before.calls } :=
  ⟨ReflTransGen.refl, rfl, rfl, id, [answered], rfl, by simpa using idle⟩

/-- What a view of the calls does not see of idle answers stays as it was. -/
theorem filterMap_calls {α : Type} {before after : Kernel} (lingers : Lingers endings before after)
    {view : Answered → Option α} (unseen : ∀ answered : Answered, answered.IsIdle →
      view answered = none) : after.calls.filterMap view = before.calls.filterMap view := by
  obtain ⟨idle, calls, all⟩ := lingers.calls
  rw [calls, List.filterMap_append, List.filterMap_eq_nil_iff.2 fun answered member =>
    unseen answered (all answered member), List.nil_append]

theorem uncollected_eq {before after : Kernel} (lingers : Lingers endings before after) :
    after.uncollected = before.uncollected :=
  lingers.ages.uncollected_eq

end Lingers

theorem ages_of_drifts {kernel after : Kernel}
    (drifts : (world endings).Drifts kernel after) :
    Ages endings kernel.attempts after.attempts :=
  (Lingers.of_drifts drifts).ages

end Kernel

/-! ## In the kernel -/

section Kernel

variable {endings : Ending → Prop} {fits : Call → Kernel → Prop} {pid : Pid} {kernel : Kernel}
  {post : Except Stop Int → Kernel → Prop}

/-- What a wait says of a child that ended. -/
theorem waitResult?_told (pid : Pid) (ending : Ending) :
    waitResult? pid (Kernel.told ending) =
      some (if ending.hasName then .ok ending.status
        else .error (.failure (.waitFailed pid.number))) := by
  unfold Kernel.told
  rw [tellable_eq]
  cases ending.hasName <;> rfl

/-- What a look says of a child that ended. -/
theorem look_toldOf (pid : Pid) (ending : Ending) :
    Look.ofAnswer (Kernel.toldOf pid ending) =
      if ending.hasName then .found (.ended pid ending)
      else .found (.failed .invalidArgument) := by
  unfold Kernel.toldOf Kernel.told
  rw [tellable_eq]
  cases ending.hasName <;> rfl

/-- A session that waits for a child comes to a wait that collects it, or that finds that it is no
child, and to no other end. -/
theorem waitFor_ensures
    (asks : ∀ asked, Kernel.Lingers endings kernel asked → fits (.bound .waits) asked)
    (waits : ∀ asked, Kernel.Lingers endings kernel asked → fits (.wait pid) asked)
    (collects : ∀ asked ending turned, Kernel.Lingers endings kernel asked →
      Turns (.ended pid ending) (.collected pid ending) asked.attempts turned →
      post (if ending.hasName then .ok ending.status
          else .error (.failure (.waitFailed pid.number)))
        { asked with attempts := turned, calls := ⟨.wait pid, Kernel.told ending⟩ :: asked.calls })
    (gone : ∀ asked, Kernel.Lingers endings kernel asked → pid ∉ kernel.uncollected →
      post (.error (.failure (.waitFailed pid.number)))
        { asked with calls := ⟨.wait pid, .error .noChild⟩ :: asked.calls }) :
    (Kernel.world endings).Ensures fits (waitFor pid).run post kernel := by
  let holds : Nat → Kernel → Prop := fun left asked =>
    Kernel.Lingers endings kernel asked ∧ asked.interruptions < left
  rw [waitFor, ensures_run_bind, ensures_run_ask]
  intro asked drifts
  have lingers := Kernel.Lingers.of_drifts drifts
  refine ⟨asks asked lingers, ?_⟩
  rintro again _ ⟨_, rfl, rfl⟩
  have initially : holds (again + 1)
      { asked with interruptions := again, calls := ⟨.bound .waits, again⟩ :: asked.calls } :=
    ⟨lingers.trans (.of_idle (.told again) asked again), Nat.lt_succ_self again⟩
  refine waitTimes_ensures ?_ ?_ ?_ ?_ ?_ initially
  · rintro left before after drifts ⟨lingers, enough⟩
    refine ⟨lingers.trans (.of_drifts drifts), ?_⟩
    rwa [Kernel.interruptions_of_drifts drifts]
  · rintro left state ⟨lingers, -⟩
    exact waits state lingers
  · rintro left before given _ ⟨_, collected | ⟨-, rfl, -⟩ | ⟨-, some, rfl⟩, rfl⟩ cut
      ⟨lingers, enough⟩
    · obtain ⟨ending, _, -, rfl, -⟩ := collected
      rw [waitResult?_told] at cut
      cases cut
    · cases cut
    · exact ⟨lingers.trans (.of_idle (.cutShort cut) _ _), by dsimp only; omega⟩
  · rintro left before given _ result ⟨_, collected | ⟨absent, rfl, rfl⟩ | ⟨cut, -, -⟩, rfl⟩ brought
      ⟨lingers, -⟩
    · obtain ⟨ending, turned, turns, rfl, rfl⟩ := collected
      rw [waitResult?_told] at brought
      cases brought
      exact collects before ending turned lingers turns
    · cases brought
      rw [lingers.uncollected_eq] at absent
      exact gone _ lingers absent
    · cases cut.symm.trans brought
  · rintro state ⟨-, enough⟩
    exact absurd enough (Nat.not_lt_zero _)

/-- Where it can be told of every ending, a wait for a child collects it and brings its status. -/
theorem waitFor_ensures_telling {kernel : Kernel}
    (asks : ∀ asked, Kernel.Lingers Ending.IsTold kernel asked → fits (.bound .waits) asked)
    (waits : ∀ asked, Kernel.Lingers Ending.IsTold kernel asked → fits (.wait pid) asked)
    (orderly : Orderly Ending.IsTold kernel.attempts) (there : pid ∈ kernel.uncollected)
    (collects : ∀ asked ending turned, Kernel.Lingers Ending.IsTold kernel asked →
      Turns (.ended pid ending) (.collected pid ending) asked.attempts turned →
      post (.ok ending.status)
        { asked with
          attempts := turned
          calls := ⟨.wait pid, .ok (.ended ending)⟩ :: asked.calls }) :
    Kernel.telling.Ensures fits (waitFor pid).run post kernel := by
  refine waitFor_ensures asks waits ?_ fun _ _ absent => absurd there absent
  intro asked ending turned lingers turns
  obtain ⟨attempt, known, lived⟩ := turns.exists_mem
  have isTold := (orderly.of_ages lingers.ages).endings attempt known pid ending lived
  rw [if_pos isTold.hasName, Kernel.told_of_isTold isTold]
  exact collects asked ending turned lingers turns

/-- Looks at the children begin with a look that collects one, that finds none, or that has to be
made again.  After a child of whose ending nothing can be told there is no other look. -/
theorem lookAtChildren_ensures {looks : Nat} {post : List ChildNotice → Kernel → Prop}
    (fit : ∀ asked, (Kernel.world endings).Drifts kernel asked → fits .lookAtChildren asked)
    (collects : ∀ asked pid ending turned, (Kernel.world endings).Drifts kernel asked →
      Turns (.ended pid ending) (.collected pid ending) asked.attempts turned →
      (Kernel.world endings).Ensures fits
        (if ending.hasName then
          lookAtChildren looks >>= fun later => pure (.ended pid ending :: later)
        else pure [.failed .invalidArgument]) post
        { asked with
          attempts := turned
          calls := ⟨.lookAtChildren, Kernel.toldOf pid ending⟩ :: asked.calls })
    (nothing : ∀ asked given, (Kernel.world endings).Drifts kernel asked →
      asked.hasWaiting = false → Look.ofAnswer given = .nothingLeft →
      post [] { asked with calls := ⟨.lookAtChildren, given⟩ :: asked.calls })
    (again : ∀ asked, (Kernel.world endings).Drifts kernel asked → 0 < asked.interruptions →
      (Kernel.world endings).Ensures fits (lookAtChildren looks) post
        { asked with
          interruptions := asked.interruptions - 1
          calls := ⟨.lookAtChildren, .error .interrupted⟩ :: asked.calls }) :
    (Kernel.world endings).Ensures fits (lookAtChildren (looks + 1)) post kernel := by
  rw [lookAtChildren, ensures_bind, ensures_ask]
  intro asked drifts
  refine ⟨fit asked drifts, ?_⟩
  rintro given _ ⟨_, collected | ⟨none, nothingLeft, rfl⟩ | ⟨rfl, some, rfl⟩, rfl⟩
  · obtain ⟨pid, ending, turned, turns, rfl, rfl⟩ := collected
    have collected := collects asked pid ending turned drifts turns
    rw [look_toldOf]
    by_cases named : ending.hasName = true
    · rw [if_pos named] at collected ⊢
      exact collected
    · rw [if_neg named] at collected ⊢
      exact collected
  · rw [nothingLeft]
    exact nothing _ given drifts none nothingLeft
  · exact again asked drifts some

end Kernel

end JobControl
