import JobControl.Proofs.Kernel.Attempts
/-!
# What children are given

A child keeps what it was given when it was started: its streams, and every handle of the session
that is not closed in children.  The session can give only what it holds, and once it holds an end
of a pipe no more it never gets that end again, since every new pipe has a new number: who has been
given the end then stays as it is.
-/

namespace JobControl

open Relation

/-- What a child is given: its program with the arguments, its streams, and what else it has of the
session. -/
structure Outfit where
  program : String
  arguments : List String
  input : Stream
  output : Stream
  errors : Stream
  others : List Opened
  deriving DecidableEq, Repr

/-- Whether an end of a pipe is among the streams, or else among what the child has. -/
def Outfit.IsGiven (outfit : Outfit) (pipeEnd : PipeEnd) : Prop :=
  outfit.input = .given (.pipeEnd pipeEnd) ∨ outfit.output = .given (.pipeEnd pipeEnd) ∨
    outfit.errors = .given (.pipeEnd pipeEnd) ∨ .pipeEnd pipeEnd ∈ outfit.others

/-- What was given in an attempt to start a child. -/
def Attempt.outfit (attempt : Attempt) : Outfit where
  program := attempt.launch.program
  arguments := attempt.launch.arguments
  input := attempt.input
  output := attempt.output
  errors := attempt.errors
  others := attempt.others

/-- What was given in all attempts, in their order. -/
def outfitsOf (attempts : List Attempt) : List Outfit :=
  attempts.map Attempt.outfit

theorem Turns.outfits_eq {old new : Life} {attempts turned : List Attempt}
    (turns : Turns old new attempts turned) : outfitsOf turned = outfitsOf attempts := by
  induction turns with
  | here _ => rfl
  | later _ inductionHypothesis =>
      exact congrArg (_ :: ·) inductionHypothesis

/-! ## What one answer does -/

/-- What one stir or one answer does to the ends of pipes: new handles stand for files or for the
ends of one new pipe, and a new attempt is given what is held. -/
structure Plumbs (before after : Kernel) : Prop where
  pipes : before.pipes ≤ after.pipes
  handles : ∀ held ∈ after.handles, held ∈ before.handles ∨
    ∀ pipeEnd, held.opened = .pipeEnd pipeEnd →
      pipeEnd.pipe = before.pipes ∧ before.pipes < after.pipes
  outfits : outfitsOf after.attempts = outfitsOf before.attempts ∨
    ∃ outfit, outfitsOf after.attempts = outfitsOf before.attempts ++ [outfit] ∧
      ∀ pipeEnd, outfit.IsGiven pipeEnd → ∃ held ∈ before.handles, held.opened = .pipeEnd pipeEnd

namespace Plumbs

variable {kernel : Kernel}

private theorem paced (kernel : Kernel) (interruptions : Nat) :
    Plumbs kernel { kernel with interruptions := interruptions } :=
  ⟨Nat.le_refl _, fun _ member => Or.inl member, Or.inl rfl⟩

theorem flag (kernel : Kernel) (raised : Bool) :
    Plumbs kernel { kernel with reapWanted := raised } :=
  ⟨Nat.le_refl _, fun _ member => Or.inl member, Or.inl rfl⟩

theorem openFile (kernel : Kernel) (handle : Handle) :
    Plumbs kernel (kernel.openFile handle) := by
  refine ⟨Nat.le_refl _, fun held member => ?_, Or.inl rfl⟩
  rcases List.mem_append.1 member with earlier | last
  · exact Or.inl earlier
  · rw [List.mem_singleton.1 last]
    exact Or.inr fun pipeEnd equal => nomatch equal

theorem pipe (kernel : Kernel) (readEnd writeEnd : Handle) (onExec : OnExec) :
    Plumbs kernel (kernel.pipe readEnd writeEnd onExec) := by
  refine ⟨Nat.le_succ _, fun held member => ?_, Or.inl rfl⟩
  rcases List.mem_append.1 member with earlier | new
  · exact Or.inl earlier
  · refine Or.inr fun pipeEnd equal => ⟨?_, Nat.lt_succ_self _⟩
    rcases List.mem_cons.1 new with rfl | second
    · cases equal
      rfl
    · rw [List.mem_singleton.1 second] at equal
      cases equal
      rfl

theorem drop (kernel : Kernel) (handle : Handle) : Plumbs kernel (kernel.drop handle) :=
  ⟨Nat.le_refl _, fun _ member => Or.inl (List.mem_filter.1 member).1, Or.inl rfl⟩

private theorem of_stream {handle : Option Handle} {pipeEnd : PipeEnd}
    (given : kernel.stream handle = .given (.pipeEnd pipeEnd)) :
    ∃ held ∈ kernel.handles, held.opened = .pipeEnd pipeEnd := by
  cases handle with
  | none => cases given
  | some handle =>
      unfold Kernel.stream at given
      dsimp only at given
      cases found : kernel.opened? handle with
      | none =>
          rw [found] at given
          cases given
      | some opened =>
          rw [found] at given
          cases given
          obtain ⟨held, first, opened⟩ := Option.map_eq_some_iff.1 found
          exact ⟨held, List.mem_of_find?_eq_some first, opened⟩

theorem of_passedOn {opened : Opened} (member : opened ∈ passedOn kernel.handles) :
    ∃ held ∈ kernel.handles, held.opened = opened := by
  obtain ⟨held, kept, equal⟩ := List.mem_map.1 member
  exact ⟨held, (List.mem_filter.1 kept).1, equal⟩

theorem enter (kernel : Kernel) (launch : Launch) (life : Life) :
    Plumbs kernel (kernel.enter launch life) := by
  refine ⟨Nat.le_refl _, fun _ member => Or.inl member, Or.inr ?_⟩
  refine ⟨_, List.map_append, fun pipeEnd given => ?_⟩
  rcases given with input | output | errors | others
  · exact of_stream input
  · exact of_stream output
  · exact of_stream errors
  · exact of_passedOn others

theorem of_turns {old new : Life} {turned : List Attempt}
    (turns : Turns old new kernel.attempts turned) (raised : Bool) :
    Plumbs kernel { kernel with attempts := turned, reapWanted := raised } :=
  ⟨Nat.le_refl _, fun _ member => Or.inl member, Or.inl turns.outfits_eq⟩

private theorem of_effect {answered : Answered} {after : Kernel}
    (effect : Kernel.Effect kernel answered after) : Plumbs kernel after := by
  cases effect with
  | keeps interruptions _ => exact paced kernel interruptions
  | takesFlag => exact flag kernel false
  | opens handle _ _ => exact openFile kernel handle
  | makesPipe readEnd writeEnd onExec => exact pipe kernel readEnd writeEnd onExec
  | closes handle => exact drop kernel handle
  | starts _ => exact enter kernel _ _
  | refuses _ =>
      obtain ⟨pipes, handles, outfits⟩ := enter kernel _ _
      exact ⟨pipes, handles, outfits⟩
  | collects _ _ turns => exact of_turns turns kernel.reapWanted

end Plumbs

/-- What every stir and every answer keeps is kept for good. -/
theorem Kernel.plumbing_induction {endings : Ending → Prop} {holds : Kernel → Prop}
    (kept : ∀ before after, Plumbs before after → holds before → holds after)
    {kernel after : Kernel} (later : (Kernel.world endings).Later kernel after)
    (initially : holds kernel) : holds after := by
  induction later with
  | refl => exact initially
  | @tail middle _ _ step inductionHypothesis =>
      rcases step with stirs | ⟨call, given, answered, responds, rfl⟩
      · cases stirs with
        | childEnds _ turns =>
            exact kept _ _ (Plumbs.of_turns turns true) inductionHypothesis
        | alarm =>
            exact kept _ _ (Plumbs.flag middle true) inductionHypothesis
      · obtain ⟨pipes, handles, outfits⟩ := Plumbs.of_effect responds.effect
        exact kept _ _ ⟨pipes, handles, outfits⟩ inductionHypothesis

/-! ## Who has an end of a pipe -/

/-- Every end of a pipe that is held or was given is one of a pipe that has been made. -/
structure Kernel.Numbered (kernel : Kernel) : Prop where
  handles : ∀ held ∈ kernel.handles, ∀ pipeEnd, held.opened = .pipeEnd pipeEnd →
    pipeEnd.pipe < kernel.pipes
  outfits : ∀ outfit ∈ outfitsOf kernel.attempts, ∀ pipeEnd, outfit.IsGiven pipeEnd →
    pipeEnd.pipe < kernel.pipes

theorem Kernel.Numbered.of_later {endings : Ending → Prop} {kernel : Kernel}
    (later : (Kernel.world endings).Later {} kernel) : kernel.Numbered := by
  refine Kernel.plumbing_induction ?_ later ⟨?_, ?_⟩
  · intro before after plumbs numbered
    have held : ∀ held ∈ after.handles, ∀ pipeEnd, held.opened = .pipeEnd pipeEnd →
        pipeEnd.pipe < after.pipes := by
      intro held member pipeEnd equal
      rcases plumbs.handles held member with earlier | new
      · exact Nat.lt_of_lt_of_le (numbered.handles held earlier pipeEnd equal) plumbs.pipes
      · obtain ⟨number, more⟩ := new pipeEnd equal
        omega
    refine ⟨held, fun outfit member pipeEnd given => ?_⟩
    have old : ∀ outfit ∈ outfitsOf before.attempts, ∀ pipeEnd, outfit.IsGiven pipeEnd →
        pipeEnd.pipe < after.pipes := fun outfit member pipeEnd given =>
      Nat.lt_of_lt_of_le (numbered.outfits outfit member pipeEnd given) plumbs.pipes
    rcases plumbs.outfits with same | ⟨last, more, givable⟩
    · rw [same] at member
      exact old outfit member pipeEnd given
    · rw [more] at member
      rcases List.mem_append.1 member with earlier | new
      · exact old outfit earlier pipeEnd given
      · rw [List.mem_singleton.1 new] at given
        obtain ⟨source, inside, equal⟩ := givable pipeEnd given
        exact Nat.lt_of_lt_of_le (numbered.handles source inside pipeEnd equal) plumbs.pipes
  · exact fun held member => absurd member List.not_mem_nil
  · exact fun outfit member => absurd member List.not_mem_nil

/-- An end of a pipe is not held by the session, and of all attempts to start a child only the one
in this place was given it. -/
structure Kernel.GivenOnly (kernel : Kernel) (pipeEnd : PipeEnd) (place : Nat) : Prop where
  made : pipeEnd.pipe < kernel.pipes
  unheld : ∀ held ∈ kernel.handles, held.opened ≠ .pipeEnd pipeEnd
  only : ∀ (other : Nat) (outfit : Outfit), (outfitsOf kernel.attempts)[other]? = some outfit →
    (outfit.IsGiven pipeEnd ↔ other = place)
  given : place < kernel.attempts.length

theorem Kernel.GivenOnly.of_later {endings : Ending → Prop} {kernel after : Kernel}
    {pipeEnd : PipeEnd} {place : Nat} (givenOnly : kernel.GivenOnly pipeEnd place)
    (later : (Kernel.world endings).Later kernel after) : after.GivenOnly pipeEnd place := by
  refine @Kernel.plumbing_induction endings (fun kernel => kernel.GivenOnly pipeEnd place)
    (fun before after plumbs kept => ?_) kernel after later givenOnly
  refine ⟨Nat.lt_of_lt_of_le kept.made plumbs.pipes, ?_, ?_, ?_⟩
  · intro held member equal
    rcases plumbs.handles held member with earlier | new
    · exact kept.unheld held earlier equal
    · obtain ⟨number, -⟩ := new pipeEnd equal
      exact absurd kept.made (by omega)
  · intro other outfit found
    rcases plumbs.outfits with same | ⟨last, more, givable⟩
    · rw [same] at found
      exact kept.only other outfit found
    · rw [more, List.getElem?_append] at found
      split at found
      · exact kept.only other outfit found
      · rename_i outside
        have inside := kept.given
        rw [outfitsOf, List.length_map] at outside
        obtain rfl : last = outfit := by
          cases place : other - (outfitsOf before.attempts).length with
          | zero =>
              rw [place] at found
              exact Option.some.inj found
          | succ _ =>
              rw [place] at found
              cases found
        constructor
        · intro given
          obtain ⟨source, member, equal⟩ := givable pipeEnd given
          exact absurd equal (kept.unheld source member)
        · intro equal
          omega
  · have lengths : ∀ kernel : Kernel,
        kernel.attempts.length = (outfitsOf kernel.attempts).length := by
      intro kernel
      rw [outfitsOf, List.length_map]
    have inside := kept.given
    rw [lengths] at inside ⊢
    rcases plumbs.outfits with same | ⟨last, more, -⟩
    · rw [same]
      exact inside
    · rw [more, List.length_append]
      omega

/-- Whether the session or a child that runs has an end of a pipe. -/
def Kernel.IsHeld (kernel : Kernel) (pipeEnd : PipeEnd) : Prop :=
  (∃ held ∈ kernel.handles, held.opened = .pipeEnd pipeEnd) ∨
    ∃ attempt ∈ kernel.attempts, attempt.life.isRunning = true ∧
      attempt.outfit.IsGiven pipeEnd

/-- When the one child that was given an end of a pipe does not run, nobody has the end. -/
theorem Kernel.GivenOnly.not_isHeld {kernel : Kernel} {pipeEnd : PipeEnd} {place : Nat}
    (givenOnly : kernel.GivenOnly pipeEnd place)
    (gone : ∀ attempt, kernel.attempts[place]? = some attempt →
      attempt.life.isRunning = false) :
    ¬ kernel.IsHeld pipeEnd := by
  rintro (⟨held, member, equal⟩ | ⟨attempt, member, running, given⟩)
  · exact givenOnly.unheld held member equal
  · obtain ⟨other, found⟩ := List.getElem?_of_mem member
    have outfit : (outfitsOf kernel.attempts)[other]? = some attempt.outfit := by
      rw [outfitsOf, List.getElem?_map, found]
      rfl
    obtain rfl := (givenOnly.only other _ outfit).1 given
    rw [gone attempt found] at running
    cases running

end JobControl
