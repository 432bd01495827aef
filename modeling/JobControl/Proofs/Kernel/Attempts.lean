import JobControl.Proofs.Kernel.Effects
import Mathlib.Data.List.Nodup
/-!
# The table of attempts

The table only grows, and an attempt in it keeps all but its life, which goes one way: a child runs,
has ended, is collected.  No two children that have not been collected have the same number.
-/

namespace JobControl

open Relation

/-! ## One attempt turns -/

namespace Turns

variable {old new : Life} {attempts turned : List Attempt}

theorem filterMap_eq {α : Type} (turns : Turns old new attempts turned)
    (view : Life → Option α) (same : view old = view new) :
    (turned.filterMap fun attempt => view attempt.life) =
      attempts.filterMap fun attempt => view attempt.life := by
  induction turns with
  | here lived =>
      simp only [List.filterMap_cons, lived, same]
  | later _ inductionHypothesis =>
      simp only [List.filterMap_cons, inductionHypothesis]

theorem uncollected_eq (turns : Turns old new attempts turned)
    (same : old.uncollected? = new.uncollected?) :
    uncollectedOf turned = uncollectedOf attempts :=
  turns.filterMap_eq Life.uncollected? same

theorem uncollected_perm {pid : Pid} {ending : Ending}
    (turns : Turns (.ended pid ending) (.collected pid ending) attempts turned) :
    (uncollectedOf attempts).Perm (pid :: uncollectedOf turned) := by
  induction turns with
  | here lived =>
      simp [uncollectedOf, lived, Life.uncollected?]
  | @later attempt rest turned _ inductionHypothesis =>
      cases lived : attempt.life.uncollected? with
      | none =>
          simpa [uncollectedOf, lived] using inductionHypothesis
      | some other =>
          simp only [uncollectedOf, List.filterMap_cons, lived] at inductionHypothesis ⊢
          exact (inductionHypothesis.cons other).trans (List.Perm.swap pid other _)

theorem uncollected_filter {pid : Pid} {ending : Ending}
    (turns : Turns (.ended pid ending) (.collected pid ending) attempts turned)
    (distinct : (uncollectedOf attempts).Nodup) :
    (uncollectedOf attempts).filter (fun process => process ≠ pid) = uncollectedOf turned := by
  induction turns with
  | @here attempt rest lived =>
      have begins : uncollectedOf (attempt :: rest) = pid :: uncollectedOf rest := by
        simp [uncollectedOf, lived, Life.uncollected?]
      rw [begins] at distinct ⊢
      have absent : pid ∉ uncollectedOf rest := (List.nodup_cons.1 distinct).1
      have kept : ∀ process ∈ uncollectedOf rest, process ≠ pid :=
        fun process member equal => absent (equal ▸ member)
      rw [List.filter_cons_of_neg (by simp), List.filter_eq_self.2 (by simpa using kept)]
      rfl
  | @later attempt rest turned turns inductionHypothesis =>
      cases lived : attempt.life.uncollected? with
      | none =>
          simp only [uncollectedOf, List.filterMap_cons, lived] at inductionHypothesis distinct ⊢
          exact inductionHypothesis distinct
      | some other =>
          have begins : ∀ tail, uncollectedOf (attempt :: tail) = other :: uncollectedOf tail := by
            intro tail
            simp [uncollectedOf, lived]
          rw [begins] at distinct
          rw [begins, begins]
          have member : pid ∈ uncollectedOf rest :=
            (turns.uncollected_perm.mem_iff).2 List.mem_cons_self
          have different : other ≠ pid :=
            fun equal => (List.nodup_cons.1 distinct).1 (equal ▸ member)
          rw [List.filter_cons_of_pos (by simpa using different),
            inductionHypothesis (List.nodup_cons.1 distinct).2]

theorem length_eq (turns : Turns old new attempts turned) :
    turned.length = attempts.length := by
  induction turns with
  | here _ => rfl
  | later _ inductionHypothesis =>
      simp only [List.length_cons, inductionHypothesis]

theorem exists_mem (turns : Turns old new attempts turned) :
    ∃ attempt ∈ attempts, attempt.life = old := by
  induction turns with
  | here lived =>
      exact ⟨_, List.mem_cons_self, lived⟩
  | later _ inductionHypothesis =>
      obtain ⟨attempt, member, lived⟩ := inductionHypothesis
      exact ⟨attempt, List.mem_cons_of_mem _ member, lived⟩

private theorem mem_before (turns : Turns old new attempts turned) {attempt : Attempt}
    (member : attempt ∈ turned) :
    attempt ∈ attempts ∨
      ∃ before ∈ attempts, before.life = old ∧ attempt = { before with life := new } := by
  induction turns with
  | here lived =>
      rcases List.mem_cons.1 member with equal | later
      · exact Or.inr ⟨_, List.mem_cons_self, lived, equal⟩
      · exact Or.inl (List.mem_cons_of_mem _ later)
  | later _ inductionHypothesis =>
      rcases List.mem_cons.1 member with equal | later
      · exact Or.inl (equal ▸ List.mem_cons_self)
      · rcases inductionHypothesis later with before | ⟨before, found, lived, turnedInto⟩
        · exact Or.inl (List.mem_cons_of_mem _ before)
        · exact Or.inr ⟨before, List.mem_cons_of_mem _ found, lived, turnedInto⟩

theorem last_or_before (turns : Turns old new attempts turned) :
    (∃ before last, last.life = old ∧ attempts = before ++ [last] ∧
        turned = before ++ [{ last with life := new }]) ∨
      ∃ before after last, attempts = before ++ [last] ∧ turned = after ++ [last] ∧
        Turns old new before after := by
  induction turns with
  | @here attempt rest lived =>
      rcases List.eq_nil_or_concat rest with rfl | ⟨init, last, rfl⟩
      · exact Or.inl ⟨[], attempt, lived, rfl, rfl⟩
      · exact Or.inr ⟨attempt :: init, { attempt with life := new } :: init, last,
          by simp, by simp, .here lived⟩
  | @later attempt rest turned _ inductionHypothesis =>
      rcases inductionHypothesis with
        ⟨before, last, lived, rfl, rfl⟩ | ⟨before, after, last, rfl, rfl, turns⟩
      · exact Or.inl ⟨attempt :: before, last, lived, rfl, rfl⟩
      · exact Or.inr ⟨attempt :: before, attempt :: after, last, rfl, rfl, .later turns⟩

theorem drop (turns : Turns old new attempts turned) (count : Nat) :
    turned.drop count = attempts.drop count ∨
      Turns old new (attempts.drop count) (turned.drop count) := by
  induction turns generalizing count with
  | here lived =>
      cases count with
      | zero => exact Or.inr (here lived)
      | succ count => exact Or.inl rfl
  | later turns inductionHypothesis =>
      cases count with
      | zero => exact Or.inr (later turns)
      | succ count => exact inductionHypothesis count

theorem take (turns : Turns old new attempts turned) (count : Nat) :
    turned.take count = attempts.take count ∨
      Turns old new (attempts.take count) (turned.take count) := by
  induction turns generalizing count with
  | here lived =>
      cases count with
      | zero => exact Or.inl rfl
      | succ count => exact Or.inr (here lived)
  | later turns inductionHypothesis =>
      cases count with
      | zero => exact Or.inl rfl
      | succ count =>
          rcases inductionHypothesis count with equal | inside
          · exact Or.inl (by simp only [List.take_succ_cons, equal])
          · exact Or.inr (later inside)

theorem slice (turns : Turns old new attempts turned) (start count : Nat) :
    Kernel.slice turned start count = Kernel.slice attempts start count ∨
      Turns old new (Kernel.slice attempts start count)
        (Kernel.slice turned start count) := by
  unfold Kernel.slice
  rcases turns.drop start with equal | inside
  · exact Or.inl (by rw [equal])
  · exact inside.take count

end Turns

/-! ## What can become of a table -/

/-- What one stir or one answer does to the table. -/
inductive Moves (endings : Ending → Prop) (before : List Attempt) : List Attempt → Prop
  | stays : Moves endings before before
  | ends {pid : Pid} {ending : Ending} {after : List Attempt} :
      endings ending →
      Turns (.running pid) (.ended pid ending) before after →
      Moves endings before after
  | collects {pid : Pid} {ending : Ending} {after : List Attempt} :
      Turns (.ended pid ending) (.collected pid ending) before after →
      Moves endings before after
  | starts {attempt : Attempt} {pid : Pid} :
      attempt.life = .running pid →
      pid ∉ uncollectedOf before →
      Moves endings before (before ++ [attempt])
  | refuses {attempt : Attempt} {fault : AccessFault} :
      attempt.life = .refused fault →
      Moves endings before (before ++ [attempt])

namespace Kernel

variable {endings : Ending → Prop} {kernel after : Kernel}

theorem Stirs.moves (stirs : Stirs endings kernel after) :
    Moves endings kernel.attempts after.attempts := by
  cases stirs with
  | childEnds allowed turns => exact .ends allowed turns
  | alarm => exact .stays

theorem Effect.moves {answered : Answered} (effect : Effect kernel answered after) :
    Moves endings kernel.attempts after.attempts := by
  cases effect with
  | keeps _ _ => exact .stays
  | takesFlag => exact .stays
  | opens _ _ _ => exact .stays
  | makesPipe _ _ _ => exact .stays
  | closes _ => exact .stays
  | starts fresh => exact .starts rfl fresh
  | refuses _ => exact .refuses rfl
  | collects _ _ turns => exact .collects turns

private theorem moves_of_answers {call : Call} {given : call.Answer}
    (answers : (Kernel.world endings).answers call kernel given after) :
    Moves endings kernel.attempts after.attempts := by
  obtain ⟨answered, responds, rfl⟩ := answers
  exact responds.effect.moves

end Kernel

/-! ## Growth -/

/-- What may become of a life. -/
inductive Life.Becomes : Life → Life → Prop
  | same (life : Life) : Becomes life life
  | ends (pid : Pid) (ending : Ending) : Becomes (.running pid) (.ended pid ending)
  | isCollected (pid : Pid) (ending : Ending) :
      Becomes (.ended pid ending) (.collected pid ending)
  | endsAndIsCollected (pid : Pid) (ending : Ending) :
      Becomes (.running pid) (.collected pid ending)

theorem Life.Becomes.trans {first second third : Life}
    (left : first.Becomes second) (right : second.Becomes third) :
    first.Becomes third := by
  cases left with
  | same => exact right
  | ends pid ending =>
      cases right with
      | same => exact .ends pid ending
      | isCollected => exact .endsAndIsCollected pid ending
  | isCollected pid ending =>
      cases right with
      | same => exact .isCollected pid ending
  | endsAndIsCollected pid ending =>
      cases right with
      | same => exact .endsAndIsCollected pid ending

/-- What may become of an attempt: another life of the same attempt. -/
def Attempt.Becomes (before after : Attempt) : Prop :=
  before.life.Becomes after.life ∧ after = { before with life := after.life }

theorem Attempt.Becomes.refl (attempt : Attempt) : attempt.Becomes attempt :=
  ⟨.same attempt.life, rfl⟩

theorem Attempt.Becomes.trans {first second third : Attempt}
    (left : first.Becomes second) (right : second.Becomes third) :
    first.Becomes third := by
  refine ⟨left.1.trans right.1, ?_⟩
  rw [right.2, left.2]

/-- The table has become another one: each of its attempts is still in its place, aged. -/
def Grows (before after : List Attempt) : Prop :=
  ∀ (place : Nat) (attempt : Attempt), before[place]? = some attempt →
    ∃ aged, after[place]? = some aged ∧ attempt.Becomes aged

namespace Grows

theorem refl (attempts : List Attempt) : Grows attempts attempts :=
  fun _ attempt found => ⟨attempt, found, Attempt.Becomes.refl attempt⟩

theorem trans {first second third : List Attempt}
    (left : Grows first second) (right : Grows second third) :
    Grows first third := by
  intro place attempt found
  obtain ⟨aged, agedFound, aging⟩ := left place attempt found
  obtain ⟨older, olderFound, olderAging⟩ := right place aged agedFound
  exact ⟨older, olderFound, aging.trans olderAging⟩

theorem append (attempts added : List Attempt) : Grows attempts (attempts ++ added) := by
  intro place attempt found
  refine ⟨attempt, ?_, Attempt.Becomes.refl attempt⟩
  obtain ⟨inside, -⟩ := List.getElem?_eq_some_iff.1 found
  rw [List.getElem?_append_left inside, found]

theorem of_turns {old new : Life} {attempts turned : List Attempt}
    (becomes : old.Becomes new) (turns : Turns old new attempts turned) :
    Grows attempts turned := by
  induction turns with
  | @here first rest lived =>
      intro place attempt found
      cases place with
      | zero =>
          obtain rfl : first = attempt := Option.some.inj found
          exact ⟨{ first with life := new }, rfl, by rw [lived]; exact becomes, rfl⟩
      | succ place =>
          exact ⟨attempt, found, Attempt.Becomes.refl attempt⟩
  | later _ inductionHypothesis =>
      intro place attempt found
      cases place with
      | zero =>
          exact ⟨attempt, found, Attempt.Becomes.refl attempt⟩
      | succ place =>
          exact inductionHypothesis place attempt found

theorem length_le {before after : List Attempt} (grows : Grows before after) :
    before.length ≤ after.length := by
  by_contra shorter
  have inside : after.length < before.length := Nat.lt_of_not_le shorter
  obtain ⟨aged, found, -⟩ := grows after.length before[after.length] (by simp [inside])
  simp at found

end Grows

theorem Moves.grows {endings : Ending → Prop} {before after : List Attempt}
    (moves : Moves endings before after) : Grows before after := by
  cases moves with
  | stays => exact .refl before
  | ends _ turns => exact .of_turns (.ends _ _) turns
  | collects turns => exact .of_turns (.isCollected _ _) turns
  | starts _ _ => exact .append before _
  | refuses _ => exact .append before _

/-- A property of the table that every move keeps is kept for good. -/
theorem Kernel.later_induction {endings : Ending → Prop} {holds : List Attempt → Prop}
    (kept : ∀ before after, Moves endings before after → holds before → holds after)
    {kernel after : Kernel} (later : (Kernel.world endings).Later kernel after)
    (initially : holds kernel.attempts) : holds after.attempts := by
  induction later with
  | refl => exact initially
  | tail _ step inductionHypothesis =>
      rcases step with stirs | ⟨call, given, answers⟩
      · exact kept _ _ (Kernel.Stirs.moves stirs) inductionHypothesis
      · exact kept _ _ (Kernel.moves_of_answers answers) inductionHypothesis

theorem Kernel.grows_of_later {endings : Ending → Prop} {kernel after : Kernel}
    (later : (Kernel.world endings).Later kernel after) :
    Grows kernel.attempts after.attempts := by
  have kept : ∀ earlier next, Moves endings earlier next →
      Grows kernel.attempts earlier → Grows kernel.attempts next :=
    fun _ _ moves grows => grows.trans moves.grows
  exact Kernel.later_induction kept later (Grows.refl _)

/-! ## What holds of every table -/

/-- The uncollected children have different numbers, and all endings are of the kind that occurs. -/
structure Orderly (endings : Ending → Prop) (attempts : List Attempt) : Prop where
  distinct : (uncollectedOf attempts).Nodup
  endings : ∀ attempt ∈ attempts, ∀ pid ending, attempt.life = .ended pid ending → endings ending

namespace Orderly

variable {endings : Ending → Prop}

theorem nil : Orderly endings [] :=
  ⟨List.nodup_nil, fun _ member => absurd member List.not_mem_nil⟩

theorem append {attempts : List Attempt} (orderly : Orderly endings attempts)
    {attempt : Attempt}
    (fresh : ∀ pid, attempt.life.uncollected? = some pid → pid ∉ uncollectedOf attempts)
    (begun : attempt.life.isWaiting = false) :
    Orderly endings (attempts ++ [attempt]) := by
  constructor
  · cases lived : attempt.life.uncollected? with
    | none =>
        simpa [uncollectedOf, lived] using orderly.distinct
    | some pid =>
        have appended :
            uncollectedOf (attempts ++ [attempt]) = uncollectedOf attempts ++ [pid] := by
          simp [uncollectedOf, lived]
        rw [appended, List.nodup_append]
        refine ⟨orderly.distinct, List.nodup_singleton pid, ?_⟩
        intro other member last lastMember equal
        rw [List.mem_singleton.1 lastMember] at equal
        exact fresh pid lived (equal ▸ member)
  · intro other member pid ending lived
    rcases List.mem_append.1 member with before | last
    · exact orderly.endings other before pid ending lived
    · rw [List.mem_singleton.1 last] at lived
      simp [lived, Life.isWaiting] at begun

theorem of_moves {before after : List Attempt} (orderly : Orderly endings before)
    (moves : Moves endings before after) : Orderly endings after := by
  cases moves with
  | stays => exact orderly
  | ends allowed turns =>
      refine ⟨(turns.uncollected_eq rfl) ▸ orderly.distinct, ?_⟩
      intro attempt member pid ending lived
      rcases turns.mem_before member with earlier | ⟨earlier, -, -, rfl⟩
      · exact orderly.endings attempt earlier pid ending lived
      · cases lived
        exact allowed
  | collects turns =>
      refine ⟨((turns.uncollected_perm.nodup_iff).1 orderly.distinct).of_cons, ?_⟩
      intro attempt member pid ending lived
      rcases turns.mem_before member with earlier | ⟨earlier, -, -, rfl⟩
      · exact orderly.endings attempt earlier pid ending lived
      · cases lived
  | @starts attempt pid lived fresh =>
      refine orderly.append ?_ (by simp [lived, Life.isWaiting])
      intro other found
      rw [lived] at found
      cases found
      exact fresh
  | @refuses attempt fault lived =>
      refine orderly.append ?_ (by simp [lived, Life.isWaiting])
      intro other found
      rw [lived] at found
      cases found

theorem of_later {kernel after : Kernel} (orderly : Orderly endings kernel.attempts)
    (later : (Kernel.world endings).Later kernel after) : Orderly endings after.attempts :=
  Kernel.later_induction (fun _ _ moves holds => holds.of_moves moves) later orderly

end Orderly

end JobControl
