import JobControl.Proofs.Reaping
/-!
# Records of calls

The kernel remembers every call that it has answered.  A view picks some of these calls and shows
something of each: the text that was written to an outlet, the children that were waited for.
What is said of the deeds of a session is said of such records.
-/

namespace JobControl

open World

/-! ## Views -/

namespace Answered

/-- The text that was written to an outlet. -/
def text? (outlet : Outlet) : Answered → Option String
  | ⟨.write written text, .ok _⟩ => if written = outlet then some text else none
  | _ => none

/-- The child that a wait has brought to its end. -/
def waited? : Answered → Option Pid
  | ⟨.wait pid, .ok (.ended _)⟩ => some pid
  | _ => none

theorem IsIdle.waited? {answered : Answered} (idle : answered.IsIdle) :
    answered.waited? = none := by
  cases idle with
  | told again => rfl
  | cutShort again =>
      unfold waitResult? at again
      split at again <;> first | rfl | cases again

private theorem waited?_told (pid : Pid) (ending : Ending) :
    Answered.waited? ⟨.wait pid, Kernel.told ending⟩ =
      if ending.hasName then some pid else none := by
  unfold Kernel.told
  rw [tellable_eq]
  cases ending.hasName <;> rfl

end Answered

/-- A view shows nothing of a call, however it is answered. -/
def Call.HiddenFrom {β : Type} (view : Answered → Option β) (call : Call) : Prop :=
  ∀ given, view ⟨call, given⟩ = none

theorem Call.hidden_of_plain {call : Call} (plain : call.isPlain = true) :
    call.HiddenFrom Answered.waited? := by
  intro given
  cases call with
  | wait pid => cases plain
  | _ => rfl

/-- Whether a call writes nothing. -/
def Call.isSilent : Call → Bool
  | .write _ _ => false
  | _ => true

theorem Call.hidden_of_silent {call : Call} (silent : call.isSilent = true) (outlet : Outlet) :
    call.HiddenFrom (Answered.text? outlet) := by
  intro given
  cases call with
  | write written text => cases silent
  | _ => rfl

/-- Whether a call writes nothing but to the errors. -/
def Call.isQuiet : Call → Bool
  | .write outlet _ => outlet = .errors
  | _ => true

theorem Call.hidden_of_quiet {call : Call} (quiet : call.isQuiet = true) {outlet : Outlet}
    (other : outlet ≠ .errors) : call.HiddenFrom (Answered.text? outlet) := by
  intro given
  cases call with
  | write written text =>
      obtain rfl : written = .errors := of_decide_eq_true quiet
      cases given with
      | ok _ => exact if_neg other.symm
      | error reason => rfl
  | _ => rfl

namespace Kernel

variable {β : Type} {view : Answered → Option β} {endings : Ending → Prop}
variable {kernel after : Kernel}

/-- What a view shows of the calls, the first call first. -/
def record (kernel : Kernel) (view : Answered → Option β) : List β :=
  kernel.calls.reverse.filterMap view

theorem record_of_drifts (drifts : (Kernel.world endings).Drifts kernel after) :
    after.record view = kernel.record view := by
  unfold record
  rw [Kernel.calls_of_drifts drifts]

/-- A view shows a call that has been answered behind those before it. -/
theorem record_of_calls {answered : Answered} (calls : after.calls = answered :: kernel.calls) :
    after.record view = kernel.record view ++ (view answered).toList := by
  unfold record
  rw [calls, List.reverse_cons, List.filterMap_append]
  cases shown : view answered with
  | none => rw [List.filterMap_cons_none shown, List.filterMap_nil, Option.toList_none]
  | some what => rw [List.filterMap_cons_some shown, List.filterMap_nil, Option.toList_some]

theorem record_of_answers {call : Call} {given : call.Answer}
    (answers : (Kernel.world endings).answers call kernel given after) :
    after.record view = kernel.record view ++ (view ⟨call, given⟩).toList := by
  obtain ⟨answered, -, rfl⟩ := answers
  exact record_of_calls rfl

/-- What a view does not show of idle answers leaves its record as it was. -/
theorem Lingers.record_eq (lingers : Lingers endings kernel after)
    (unseen : ∀ {answered : Answered}, answered.IsIdle → view answered = none) :
    after.record view = kernel.record view := by
  unfold record
  rw [List.filterMap_reverse, List.filterMap_reverse, lingers.filterMap_calls fun _ => unseen]

theorem record_prefix_of_later (later : (Kernel.world endings).Later kernel after) :
    kernel.record view <+: after.record view := by
  induction later with
  | refl => exact List.prefix_rfl
  | tail _ step inductionHypothesis =>
      obtain stirs | ⟨call, given, answers⟩ := step
      · rw [record_of_drifts (Relation.ReflTransGen.single stirs)]
        exact inductionHypothesis
      · rw [record_of_answers answers]
        exact inductionHypothesis.trans (List.prefix_append _ _)

/-- What a view shows of the calls that were answered between two states. -/
def shownUntil (before after : Kernel) (view : Answered → Option β) : List β :=
  (after.record view).drop (before.record view).length

theorem shownUntil_of_append {before : Kernel} {shown : List β}
    (record : after.record view = before.record view ++ shown) :
    before.shownUntil after view = shown := by
  unfold shownUntil
  rw [record, List.drop_left]

/-! ## Hearing -/

/-- Text for some outlets is written. -/
def Hears (outlets : List Outlet) : (call : Call) → Kernel → call.Answer → Prop
  | .write outlet _, _, given => outlet ∈ outlets → given = .ok ()
  | _, _, _ => True

/-- The kernel that writes whatever text is for some outlets. -/
def hearing (endings : Ending → Prop) (outlets : List Outlet) : World Kernel :=
  (Kernel.world endings).restrict (Hears outlets)

end Kernel

/-! ## Programs and their records -/

section Programs

variable {α β : Type} {view : Answered → Option β}

/-- A program of calls that a view hides leaves its record as it was. -/
theorem Program.Within.record_eq {good : α → Prop} {program : Program α}
    (hidden : program.Within (Call.HiddenFrom view) good) (endings : Ending → Prop)
    (kernel : Kernel) :
    (Kernel.world endings).Ensures (fun _ _ => True) program
      (fun result after => good result ∧ after.record view = kernel.record view) kernel := by
  let holds : Kernel → Prop := fun state => state.record view = kernel.record view
  refine Program.Within.ensures ?_ (fun _ _ _ _ => trivial) ?_ hidden (show holds kernel from rfl)
  · intro before after stirs same
    exact (Kernel.record_of_drifts (Relation.ReflTransGen.single stirs)).trans same
  · intro call before given after unseen answers same
    rw [Kernel.record_of_answers answers, unseen given, Option.toList_none, List.append_nil]
    exact same

/-- A program makes only calls that fit. -/
theorem Program.Within.fits {σ : Type} {world : World σ} {allowed : Call → Prop}
    {fits : Call → σ → Prop} {good : α → Prop} {program : Program α}
    (within : program.Within allowed good) (fit : ∀ call state, allowed call → fits call state)
    (state : σ) : world.Ensures fits program (fun result _ => good result) state := by
  induction program generalizing state with
  | done result => exact within
  | step call next inductionHypothesis =>
      intro asked drift
      exact ⟨fit call asked within.1, fun given after _ =>
        inductionHypothesis given (within.2 given) after⟩

end Programs

/-! ## Waiting -/

/-- Processes that are waited for without failure are waited for one after the other. -/
theorem waitForProcesses_waits (endings : Ending → Prop) (last : Option Pid)
    (known : Option Int) (pids : List Pid) (kernel : Kernel) :
    (Kernel.world endings).Ensures (fun _ _ => True) (waitForProcesses last known pids).run
      (fun outcome after => ∀ status, outcome = .ok status →
        after.record Answered.waited? = kernel.record Answered.waited? ++ pids) kernel := by
  induction pids generalizing known kernel with
  | nil => exact fun _ _ => (List.append_nil _).symm
  | cons pid rest inductionHypothesis =>
      rw [waitForProcesses, ensures_run_bind]
      refine waitFor_ensures (fun _ _ => trivial) (fun _ _ => trivial) ?_ ?_
      · intro asked ending turned lingers _
        by_cases named : ending.hasName = true
        · rw [if_pos named, afterAction_ok]
          refine (inductionHypothesis _ _).mono ?_
          intro ended later others status equal
          rw [others status equal, Kernel.record_of_calls rfl,
            lingers.record_eq Answered.IsIdle.waited?, Answered.waited?_told, if_pos named,
            Option.toList_some, List.append_assoc, List.singleton_append]
        · rw [if_neg named]
          intro status failed
          cases failed
      · intro _ _ _ status failed
        cases failed

theorem Entry.wait_isSilent (entry : Entry) :
    entry.wait.Makes (fun call => call.isSilent = true) fun _ => True :=
  waitForProcesses_makes (by rfl) (fun _ => rfl) (fun _ => trivial) _ _ _

/-! ## Signalling -/

private theorem sendShutdown_isSilent (pids : List Pid) :
    (sendShutdown pids).Only fun call => call.isSilent = true := by
  induction pids with
  | nil => exact trivial
  | cons pid rest inductionHypothesis => exact ⟨rfl, fun _ => inductionHypothesis⟩

theorem signalJobs_isSilent (entries : List Entry) :
    (Session.signalJobs entries).Only fun call => call.isSilent = true := by
  induction entries with
  | nil => exact trivial
  | cons entry rest inductionHypothesis =>
      exact Program.Within.bind (sendShutdown_isSilent entry.processes) fun _ _ =>
        inductionHypothesis

/-! ## Writing -/

section Writing

variable {endings : Ending → Prop} {kernel : Kernel} {outlets : List Outlet} {outlet : Outlet}
variable {fits : Call → Kernel → Prop}

/-- What has been written is shown by every view behind what it showed before. -/
def HasWritten (endings : Ending → Prop) (kernel : Kernel) (outlet : Outlet)
    (texts : List String) (after : Kernel) : Prop :=
  (Kernel.world endings).Later kernel after ∧
    ∀ {β : Type} (view : Answered → Option β), after.record view = kernel.record view ++
      texts.filterMap fun text => view ⟨.write outlet text, .ok ()⟩

theorem HasWritten.nothing : HasWritten endings kernel outlet [] kernel :=
  ⟨Relation.ReflTransGen.refl, fun _ => (List.append_nil _).symm⟩

theorem HasWritten.trans {middle after : Kernel} {first second : List String}
    (left : HasWritten endings kernel outlet first middle)
    (right : HasWritten endings middle outlet second after) :
    HasWritten endings kernel outlet (first ++ second) after := by
  refine ⟨left.1.trans right.1, fun view => ?_⟩
  rw [right.2 view, left.2 view, List.append_assoc, List.filterMap_append]

theorem HasWritten.texts {after : Kernel} {texts : List String}
    (written : HasWritten endings kernel outlet texts after) :
    after.record (Answered.text? outlet) = kernel.record (Answered.text? outlet) ++ texts := by
  have shown : (fun text => Answered.text? outlet ⟨.write outlet text, .ok ()⟩) = some :=
    funext fun _ => if_pos rfl
  rw [written.2, shown, List.filterMap_some]

theorem HasWritten.waited {after : Kernel} {texts : List String}
    (written : HasWritten endings kernel outlet texts after) :
    after.record Answered.waited? = kernel.record Answered.waited? := by
  have shown : (fun text => Answered.waited? ⟨.write outlet text, .ok ()⟩) = fun _ => none := rfl
  rw [written.2, shown, List.filterMap_none, List.append_nil]

private theorem ask_write_hears (heard : outlet ∈ outlets) {text : String}
    (fit : ∀ asked, (Kernel.world endings).Later kernel asked → fits (.write outlet text) asked) :
    (Kernel.hearing endings outlets).Ensures fits (Program.ask (.write outlet text))
      (fun answer after => answer = .ok () ∧ HasWritten endings kernel outlet [text] after)
      kernel := by
  rw [ensures_ask]
  intro asked drifts
  have later : (Kernel.world endings).Later kernel asked := Drifts.later drifts
  refine ⟨fit asked later, ?_⟩
  rintro given after ⟨answers, granted⟩
  obtain rfl : given = .ok () := granted heard
  refine ⟨rfl, later.tail (Or.inr ⟨_, _, answers⟩), fun view => ?_⟩
  rw [Kernel.record_of_answers answers, Kernel.record_of_drifts drifts]
  cases shown : view ⟨.write outlet text, .ok ()⟩ <;> simp [shown]

/-- Text for an outlet that is heard is written. -/
theorem write_hears (heard : outlet ∈ outlets) {text : String}
    (fit : ∀ asked, (Kernel.world endings).Later kernel asked → fits (.write outlet text) asked) :
    (Kernel.hearing endings outlets).Ensures fits (Action.write outlet text).run
      (fun outcome after => outcome = .ok () ∧ HasWritten endings kernel outlet [text] after)
      kernel := by
  unfold Action.write
  rw [ensures_run_bind]
  refine (ensures_run_lift (Program.ask (.write outlet text)) _ _).2 ?_
  refine (ask_write_hears heard fit).mono ?_
  rintro answer after ⟨rfl, written⟩
  exact ⟨rfl, written⟩

private theorem notice_hears (heard : outlet ∈ outlets) {text : String}
    (fit : ∀ asked, (Kernel.world endings).Later kernel asked → fits (.write outlet text) asked) :
    (Kernel.hearing endings outlets).Ensures fits (Action.notice outlet text).run
      (fun outcome after => outcome = .ok () ∧ HasWritten endings kernel outlet [text] after)
      kernel := by
  unfold Action.notice
  rw [ensures_run_bind]
  refine (ensures_run_lift (Program.ask (.write outlet text)) _ _).2 ?_
  refine (ask_write_hears heard fit).mono ?_
  rintro answer after ⟨rfl, written⟩
  exact ⟨rfl, written⟩

theorem announceDone_hears (heard : .output ∈ outlets) {entries : List Entry}
    (fit : ∀ asked, (Kernel.world endings).Later kernel asked →
      ∀ entry ∈ entries, fits (.write .output (Session.jobNotice entry "Done")) asked) :
    (Kernel.hearing endings outlets).Ensures fits (Session.announceDone entries).run
      (fun outcome after => outcome = .ok () ∧ HasWritten endings kernel .output
        (entries.map fun entry => Session.jobNotice entry "Done") after) kernel := by
  induction entries generalizing kernel with
  | nil => exact ⟨rfl, HasWritten.nothing⟩
  | cons entry rest inductionHypothesis =>
      rw [Session.announceDone, ensures_run_bind]
      refine (notice_hears heard fun asked later => fit asked later entry List.mem_cons_self).mono
        ?_
      rintro _ told ⟨rfl, first⟩
      rw [afterAction_ok]
      refine (inductionHypothesis fun asked later other member =>
        fit asked (first.1.trans later) other (List.mem_cons_of_mem entry member)).mono ?_
      exact fun outcome after ⟨done, others⟩ => ⟨done, first.trans others⟩

theorem announceTerminated_hears (heard : outlet ∈ outlets) (entries : List Entry) :
    (Kernel.hearing endings outlets).Ensures (fun _ _ => True)
      (Session.announceTerminated outlet entries).run
      (fun outcome after => outcome = .ok () ∧ HasWritten endings kernel outlet
        (entries.map fun entry => Session.jobNotice entry "Terminated") after) kernel := by
  induction entries generalizing kernel with
  | nil => exact ⟨rfl, HasWritten.nothing⟩
  | cons entry rest inductionHypothesis =>
      rw [Session.announceTerminated, ensures_run_bind]
      refine (write_hears heard fun _ _ => trivial).mono ?_
      rintro _ told ⟨rfl, first⟩
      rw [afterAction_ok]
      refine inductionHypothesis.mono ?_
      exact fun outcome after ⟨done, others⟩ => ⟨done, first.trans others⟩

end Writing

end JobControl
