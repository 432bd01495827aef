import JobControl.Redirection
import JobControl.Proofs.OpenFiles
/-!
# Opening named files in order

The files that a job names are opened on a machine one after the other, until one is refused, which
tells the failure.  What has happened to the tree by then is that the missing output and error files
before it have been created.
-/

namespace JobControl

/-! ## Files that are refused -/

/-- The answers of a machine on which a file may also be refused for reasons that the machine does
not know, such as a missing permission; nothing happens then. -/
def Machine.answerOrRefuse (refuses : Machine → Call → Option AccessFault) (call : Call)
    (machine : Machine) : call.Answer × Machine :=
  match call, refuses machine call with
  | .openInput _, some fault => (.error fault, machine)
  | .openOutput _ _, some fault => (.error fault, machine)
  | call, _ => machine.answer call

private theorem Machine.answerOrRefuse_of_none {refuses : Machine → Call → Option AccessFault}
    {call : Call} {machine : Machine} (unrefused : refuses machine call = none) :
    machine.answerOrRefuse refuses call = machine.answer call := by
  unfold answerOrRefuse
  rw [unrefused]
  cases call <;> rfl

private theorem Machine.answerOrRefuse_openInput_of_some
    {refuses : Machine → Call → Option AccessFault} {path : String} {machine : Machine}
    {fault : AccessFault} (refused : refuses machine (.openInput path) = some fault) :
    machine.answerOrRefuse refuses (.openInput path) = (.error fault, machine) := by
  unfold answerOrRefuse
  rw [refused]

private theorem Machine.answerOrRefuse_openOutput_of_some
    {refuses : Machine → Call → Option AccessFault} {path : String} {permissions : Permissions}
    {machine : Machine} {fault : AccessFault}
    (refused : refuses machine (.openOutput path permissions) = some fault) :
    machine.answerOrRefuse refuses (.openOutput path permissions) = (.error fault, machine) := by
  unfold answerOrRefuse
  rw [refused]

namespace Redirections

/-- The streams for which a job may name a file. -/
inductive Stream where
  | input
  | output
  | errors
  deriving DecidableEq, Repr

/-- Whether what is written to the stream comes after what its file held. -/
def Stream.appends : Stream → Bool
  | .input => false
  | .output | .errors => true

def Stream.opening : Stream → String → Action Handle
  | .input => openInput
  | .output | .errors => openOutput

/-- A stream with the file that a job names for it. -/
structure Naming where
  stream : Stream
  path : String
  deriving DecidableEq, Repr

def named (stream : Stream) (path? : Option String) : List Naming :=
  (path?.map (Naming.mk stream)).toList

/-- The files that a job names, in the order in which they are opened. -/
def namings (job : Job) : List Naming :=
  named .input job.inputFile ++ (named .output job.outputFile ++ named .errors job.first.errorFile)

/-- The failure of a job whose file is refused. -/
def Naming.failure : Naming → AccessFault → Failure
  | ⟨.input, path⟩, .refused .noEntry => .fileNotFound path
  | ⟨.input, _⟩, fault => .access fault
  | ⟨.output, path⟩, _ | ⟨.errors, path⟩, _ => .notWritable path

/-- What comes of asking a machine for a named file. -/
def Naming.openOn (refuses : Machine → Call → Option AccessFault) (machine : Machine) :
    Naming → Except AccessFault Handle × Machine
  | ⟨.input, path⟩ => machine.answerOrRefuse refuses (.openInput path)
  | ⟨.output, path⟩ | ⟨.errors, path⟩ =>
      machine.answerOrRefuse refuses (.openOutput path .ownerOnly)

section Opening

variable {refuses : Machine → Call → Option AccessFault} {before middle after reached : Machine}
  {naming : Naming} {handle : Handle} {fault : AccessFault}

private theorem Naming.openOn_of_appends (refuses : Machine → Call → Option AccessFault)
    (machine : Machine) (appends : naming.stream.appends = true) :
    naming.openOn refuses machine =
      machine.answerOrRefuse refuses (.openOutput naming.path .ownerOnly) := by
  obtain ⟨stream, path⟩ := naming
  cases stream with
  | input => cases appends
  | output | errors => rfl

/-- What asking for a named file can come to. -/
inductive Opening (machine : Machine) (naming : Naming) :
    Except AccessFault Handle × Machine → Prop
  | refused (fault : AccessFault) : Opening machine naming (.error fault, machine)
  | found {node : Machine.NodeId} :
      machine.tree.find machine.session.directory naming.path = .ok node →
      Opening machine naming (.ok (machine.openNode machine.tree node naming.stream.appends).1,
        (machine.openNode machine.tree node naming.stream.appends).2)
  | created {tree : Machine.FileTree} {directory : Machine.NodeId} {name : RawText} :
      naming.stream.appends = true →
      machine.tree.locate machine.session.directory naming.path true =
        .ok ⟨directory, name, none⟩ →
      Machine.FileTree.AddsFile machine.tree tree directory name
        (Machine.FileTree.newFile (Machine.permissionBits .ownerOnly)) →
      Opening machine naming (.ok (machine.openNode tree machine.tree.nodes.size true).1,
        (machine.openNode tree machine.tree.nodes.size true).2)

private theorem Naming.openOn_cases (refuses : Machine → Call → Option AccessFault)
    (machine : Machine) (naming : Naming) :
    Opening machine naming (naming.openOn refuses machine) := by
  by_cases appends : naming.stream.appends = true
  · rw [Naming.openOn_of_appends refuses machine appends]
    cases policy : refuses machine (.openOutput naming.path .ownerOnly) with
    | some fault =>
        rw [Machine.answerOrRefuse_openOutput_of_some policy]
        exact .refused fault
    | none =>
        rw [Machine.answerOrRefuse_of_none policy]
        obtain ⟨fault, refused⟩ | ⟨node, tree, opened, given⟩ :=
          machine.openOutput_cases naming.path .ownerOnly
        · rw [refused]
          exact .refused fault
        · rw [given]
          obtain ⟨found, -, rfl⟩ | ⟨directory, name, located, rfl, adds⟩ :=
            Machine.FileTree.findOrCreate_eq_ok opened
          · have granted := Opening.found found
            rwa [appends] at granted
          · exact .created appends located adds
  · obtain ⟨stream, path⟩ := naming
    cases stream with
    | output | errors => cases appends rfl
    | input =>
        rw [Naming.openOn]
        cases policy : refuses machine (.openInput path) with
        | some fault =>
            rw [Machine.answerOrRefuse_openInput_of_some policy]
            exact .refused fault
        | none =>
            rw [Machine.answerOrRefuse_of_none policy]
            obtain ⟨fault, refused⟩ | ⟨node, found, given⟩ := machine.openInput_cases path
            · rw [refused]
              exact .refused fault
            · rw [given]
              exact .found found

theorem Opening.of_openOn {outcome : Except AccessFault Handle}
    (given : naming.openOn refuses before = (outcome, after)) :
    Opening before naming (outcome, after) := by
  rw [← given]
  exact naming.openOn_cases refuses before

theorem Opening.refused_eq (opening : Opening before naming (.error fault, after)) :
    after = before := by
  cases opening
  rfl

theorem Opening.grows (opening : Opening before naming (.ok handle, after)) :
    before.Grows after ∧ after.Holds naming.stream.appends naming.path handle := by
  generalize result : (Except.ok handle, after) = given at opening
  cases opening with
  | refused => cases result
  | found found =>
      cases result
      exact ⟨before.openNode_grows (.refl _ _) _ _, before.openNode_holds _ found⟩
  | created appends located adds =>
      cases result
      rw [appends]
      exact ⟨before.openNode_grows adds.extends _ _,
        before.openNode_holds _ (adds.find_added rfl located)⟩

/-- A node that is new after an opening is the named file, which was missing. -/
theorem Opening.created_eq (opening : Opening before naming (.ok handle, after))
    {node : Machine.NodeId} (new : before.tree.nodes.size ≤ node)
    (inside : node < after.tree.nodes.size) :
    naming.stream.appends = true ∧
      before.tree.find before.session.directory naming.path = .error .noEntry ∧
      after.tree.find before.session.directory naming.path = .ok node := by
  generalize result : (Except.ok handle, after) = given at opening
  cases opening with
  | refused => cases result
  | found found =>
      cases result
      exact absurd inside (Nat.not_lt.2 new)
  | created appends located adds =>
      cases result
      rw [Machine.tree_openNode, adds.size] at inside
      obtain rfl := Nat.le_antisymm (Nat.le_of_lt_succ inside) new
      exact ⟨appends, Machine.FileTree.find_eq_error_iff.2 (.inr ⟨rfl, _, located, rfl⟩),
        adds.find_added rfl located⟩

end Opening

/-! ## Opening one file after the other -/

/-- Named files are opened in order, until one is refused: those that have been opened, the failure
if there is one, and the machine then. -/
inductive OpensUntil (refuses : Machine → Call → Option AccessFault) :
    List Naming → Machine → List Naming → Option Failure → Machine → Prop
  | finished (machine : Machine) : OpensUntil refuses [] machine [] none machine
  | refused {naming : Naming} {machine : Machine} {fault : AccessFault} (rest : List Naming) :
      naming.openOn refuses machine = (.error fault, machine) →
      OpensUntil refuses (naming :: rest) machine [] (some (naming.failure fault)) machine
  | opened {naming : Naming} {rest opened : List Naming} {before middle reached : Machine}
      {handle : Handle} {failure : Option Failure} :
      naming.openOn refuses before = (.ok handle, middle) →
      OpensUntil refuses rest middle opened failure reached →
      OpensUntil refuses (naming :: rest) before (naming :: opened) failure reached

section OpensUntil

variable {refuses : Machine → Call → Option AccessFault} {before middle after reached : Machine}
  {todo opened : List Naming} {failure : Option Failure}

theorem OpensUntil.grows (opens : OpensUntil refuses todo before opened failure reached) :
    before.Grows reached := by
  induction opens with
  | finished machine => exact .refl machine
  | refused => exact .refl _
  | opened given _ inductionHypothesis =>
      exact (Opening.of_openOn given).grows.1.trans inductionHypothesis

/-- The files that have been opened are there. -/
theorem OpensUntil.found (opens : OpensUntil refuses todo before opened failure reached) :
    ∀ naming ∈ opened, ∃ node,
      reached.tree.find before.session.directory naming.path = .ok node := by
  induction opens with
  | finished | refused => simp
  | opened given later inductionHypothesis =>
      obtain ⟨grows, holds⟩ := (Opening.of_openOn given).grows
      intro other listed
      cases listed with
      | head =>
          obtain ⟨file, node, -, -, found⟩ := later.grows.holds holds
          rw [later.grows.directory, grows.directory] at found
          exact ⟨node, found⟩
      | tail _ listed =>
          rw [← grows.directory]
          exact inductionHypothesis other listed

/-- The nodes that are new are those of the output and error files among the opened ones to which no
path led. -/
theorem OpensUntil.created_iff (opens : OpensUntil refuses todo before opened failure reached)
    (node : Machine.NodeId) :
    before.tree.nodes.size ≤ node ∧ node < reached.tree.nodes.size ↔
      ∃ naming ∈ opened, naming.stream.appends = true ∧
        before.tree.find before.session.directory naming.path = .error .noEntry ∧
        reached.tree.find before.session.directory naming.path = .ok node := by
  refine ⟨?_, fun ⟨naming, _, _, missing, found⟩ =>
    opens.grows.tree.missing _ _ _ missing found⟩
  induction opens with
  | finished | refused =>
      rintro ⟨new, inside⟩
      exact absurd inside (Nat.not_lt.2 new)
  | opened given later inductionHypothesis =>
      rename_i naming rest opened before middle reached handle failure
      have opening := Opening.of_openOn given
      obtain ⟨grows, -⟩ := opening.grows
      rintro ⟨new, inside⟩
      by_cases early : node < middle.tree.nodes.size
      · obtain ⟨appends, missing, found⟩ := opening.created_eq new early
        have still := later.grows.tree.found _ _ _ found
        exact ⟨naming, List.mem_cons_self, appends, missing, still⟩
      · obtain ⟨other, listed, appends, missing, found⟩ :=
          inductionHypothesis ⟨Nat.le_of_not_lt early, inside⟩
        rw [grows.directory] at missing found
        exact ⟨other, List.mem_cons_of_mem _ listed, appends,
          grows.tree.missing_before missing, found⟩

/-- Where none is refused, all are opened. -/
theorem OpensUntil.eq_todo (opens : OpensUntil refuses todo before opened none reached) :
    opened = todo := by
  generalize unfailed : none = failure at opens
  induction opens with
  | finished => rfl
  | refused => cases unfailed
  | opened _ _ inductionHypothesis => rw [inductionHypothesis unfailed]

/-- After a first refusal nothing else is done. -/
theorem OpensUntil.eq_of_refused {naming : Naming} {fault : AccessFault}
    (opens : OpensUntil refuses (naming :: todo) before opened failure reached)
    (refused : naming.openOn refuses before = (.error fault, before)) :
    opened = [] ∧ failure = some (naming.failure fault) ∧ reached = before := by
  cases opens with
  | refused _ given =>
      rw [refused] at given
      cases given
      exact ⟨rfl, rfl, rfl⟩
  | opened given _ =>
      rw [refused] at given
      cases given

private theorem OpensUntil.rest_of_granted {naming : Naming} {handle : Handle}
    (opens : OpensUntil refuses (naming :: todo) before opened failure reached)
    (granted : naming.openOn refuses before = (.ok handle, middle)) :
    ∃ later, opened = naming :: later ∧ OpensUntil refuses todo middle later failure reached := by
  cases opens with
  | refused _ given =>
      rw [granted] at given
      cases given
  | opened given later =>
      rw [granted] at given
      cases given
      exact ⟨_, rfl, later⟩

/-- A failure is that of a file which was refused. -/
theorem OpensUntil.exists_refused {reason : Failure}
    (opens : OpensUntil refuses todo before opened (some reason) reached) :
    ∃ naming ∈ todo, ∃ fault, reason = naming.failure fault := by
  generalize failed : some reason = failure at opens
  induction opens with
  | finished => cases failed
  | refused rest given =>
      cases failed
      exact ⟨_, List.mem_cons_self, _, rfl⟩
  | opened _ _ inductionHypothesis =>
      obtain ⟨naming, listed, fault, same⟩ := inductionHypothesis failed
      exact ⟨naming, List.mem_cons_of_mem _ listed, fault, same⟩

end OpensUntil

/-! ## The input file -/

section Input

variable {refuses : Machine → Call → Option AccessFault} {job : Job} {before reached : Machine}
  {opened : List Naming} {failure : Option Failure} {path : String}

private theorem namings_of_input (input : job.inputFile = some path) :
    namings job = ⟨.input, path⟩ ::
      (named .output job.outputFile ++ named .errors job.first.errorFile) := by
  simp [namings, named, input]

private theorem appends_of_mem_outputs {naming : Naming}
    (listed : naming ∈ named .output job.outputFile ++ named .errors job.first.errorFile) :
    naming.stream.appends = true := by
  simp only [named, List.mem_append, Option.mem_toList, Option.map_eq_some_iff] at listed
  obtain ⟨_, _, rfl⟩ | ⟨_, _, rfl⟩ := listed
  · rfl
  · rfl

private theorem eq_of_failure_eq_fileNotFound {other : String} {fault : AccessFault}
    (failed : Naming.failure ⟨.input, other⟩ fault = .fileNotFound path) :
    other = path ∧ fault = .refused .noEntry := by
  cases fault with
  | refused reason => cases reason <;> simp_all [Naming.failure]
  | nulInName | notText => simp [Naming.failure] at failed

theorem Naming.failure_ne_conflict (naming : Naming) (fault : AccessFault) :
    naming.failure fault ≠ .redirectionConflict := by
  obtain ⟨stream, path⟩ := naming
  cases stream with
  | input =>
      cases fault with
      | refused reason => cases reason <;> simp [Naming.failure]
      | nulInName | notText => simp [Naming.failure]
  | output | errors => simp [Naming.failure]

private theorem failure_ne_fileNotFound {naming : Naming} (appends : naming.stream.appends = true)
    (fault : AccessFault) : naming.failure fault ≠ .fileNotFound path := by
  obtain ⟨stream, other⟩ := naming
  cases stream with
  | input => cases appends
  | output | errors => simp [Naming.failure]

private theorem OpensUntil.not_fileNotFound {todo : List Naming}
    (opens : OpensUntil refuses todo before opened (some (.fileNotFound path)) reached)
    (appends : ∀ naming ∈ todo, naming.stream.appends = true) : False := by
  obtain ⟨naming, listed, fault, failed⟩ := opens.exists_refused
  exact failure_ne_fileNotFound (appends naming listed) fault failed.symm

/-- A file is not found if it is the input and the system says so. -/
theorem OpensUntil.fileNotFound_iff
    (opens : OpensUntil refuses (namings job) before opened failure reached) (path : String) :
    failure = some (.fileNotFound path) ↔ job.inputFile = some path ∧
      Naming.openOn refuses before ⟨.input, path⟩ = (.error (.refused .noEntry), before) := by
  constructor
  · rintro rfl
    cases input : job.inputFile with
    | none =>
        have outputs : namings job =
            named .output job.outputFile ++ named .errors job.first.errorFile := by
          simp [namings, named, input]
        rw [outputs] at opens
        exact (opens.not_fileNotFound fun _ => appends_of_mem_outputs).elim
    | some other =>
        rw [namings_of_input input] at opens
        cases given : Naming.openOn refuses before ⟨.input, other⟩ with
        | mk outcome after =>
            cases outcome with
            | ok handle =>
                obtain ⟨later, -, opensLater⟩ := opens.rest_of_granted given
                exact (opensLater.not_fileNotFound fun _ => appends_of_mem_outputs).elim
            | error fault =>
                obtain rfl := (Opening.of_openOn given).refused_eq
                have failed := (opens.eq_of_refused given).2.1
                obtain ⟨rfl, rfl⟩ := eq_of_failure_eq_fileNotFound (Option.some.inj failed).symm
                exact ⟨rfl, given⟩
  · rintro ⟨input, refused⟩
    rw [namings_of_input input] at opens
    exact (opens.eq_of_refused refused).2.1

/-- If the input is missing, nothing is done. -/
theorem OpensUntil.eq_of_missing
    (opens : OpensUntil refuses (namings job) before opened failure reached)
    (input : job.inputFile = some path)
    (missing : before.tree.find before.session.directory path = .error .noEntry) :
    reached = before := by
  rw [namings_of_input input] at opens
  cases given : Naming.openOn refuses before ⟨.input, path⟩ with
  | mk outcome after =>
      have opening := Opening.of_openOn given
      cases opening with
      | refused fault => exact (opens.eq_of_refused given).2.2
      | found found =>
          rw [missing] at found
          cases found
      | created appends => cases appends

end Input

end Redirections

end JobControl
