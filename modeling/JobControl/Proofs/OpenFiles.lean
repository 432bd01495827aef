import JobControl.Machine.Answer
import JobControl.Proofs.FileTree
import Mathlib.Data.List.Nodup
/-!
# Open files of a session

A file that is opened gets a descriptor that was free, so the files that were open stay open under
theirs, and no file but a missing one that is opened for writing is created.  Whatever is written
to open files that are written at their end comes after what their files held, in the order in which
it is written.
-/

namespace JobControl.Machine

/-! ## Descriptors -/

namespace Surroundings

private theorem lookup_filter_ne (entries : List (Nat × OpenFileId)) (descriptor other : Nat) :
    (entries.filter fun entry => entry.1 ≠ descriptor).lookup other =
      if other = descriptor then none else entries.lookup other := by
  induction entries with
  | nil => simp
  | cons entry entries inductionHypothesis =>
      obtain ⟨taken, file⟩ := entry
      by_cases closed : taken = descriptor
      · rw [List.filter_cons_of_neg (by simpa using closed), inductionHypothesis]
        by_cases same : other = descriptor
        · simp [same]
        · have apart : (other == taken) = false := by simpa [closed] using same
          simp [List.lookup_cons, apart, same]
      · rw [List.filter_cons_of_pos (by simpa using closed), List.lookup_cons, List.lookup_cons]
        by_cases found : other = taken
        · simp [closed, found]
        · have apart : (other == taken) = false := by simpa using found
          simp only [apart, inductionHypothesis]

private theorem openFile?_closing (surroundings : Surroundings) (descriptor other : Nat) :
    (surroundings.closing descriptor).openFile? other =
      if other = descriptor then none else surroundings.openFile? other :=
  lookup_filter_ne surroundings.descriptors descriptor other

@[simp]
theorem openFile?_marking (surroundings : Surroundings) (descriptor other : Nat)
    (onExec : OnExec) :
    (surroundings.marking descriptor onExec).openFile? other = surroundings.openFile? other := by
  cases onExec <;> rfl

private theorem openFile?_opening (surroundings : Surroundings) (descriptor : Nat)
    (file : OpenFileId) (other : Nat) :
    (surroundings.opening descriptor file).openFile? other =
      if other = descriptor then some file else surroundings.openFile? other := by
  have later : (surroundings.closing descriptor).descriptors.lookup other =
      if other = descriptor then none else surroundings.openFile? other :=
    openFile?_closing surroundings descriptor other
  by_cases same : other = descriptor
  · simp [opening, openFile?, same]
  · have apart : (other == descriptor) = false := by simpa using same
    simp only [opening, openFile?, List.lookup_cons, apart, later, same, if_false]

/-- Of one more descriptors than are taken one is free. -/
theorem exists_free (taken : List Nat) :
    ∃ n ∈ List.range (taken.length + 1), n + 3 ∉ taken := by
  by_contra none
  simp only [not_exists, not_and, not_not] at none
  have all : (List.range (taken.length + 1)).map (· + 3) ⊆ taken := by
    intro descriptor listed
    obtain ⟨n, member, rfl⟩ := List.mem_map.1 listed
    exact none n member
  have distinct : ((List.range (taken.length + 1)).map (· + 3)).Nodup :=
    List.nodup_range.map fun _ _ same => Nat.add_right_cancel same
  have few := distinct.length_le_of_subset all
  simp only [List.length_map, List.length_range] at few
  omega

private theorem openFile?_freeDescriptor (surroundings : Surroundings) :
    surroundings.openFile? surroundings.freeDescriptor = none := by
  have free := exists_free (surroundings.descriptors.map Prod.fst)
  obtain ⟨n, found⟩ : ∃ n, (List.range ((surroundings.descriptors.map Prod.fst).length + 1)).find?
      (fun n => !(surroundings.descriptors.map Prod.fst).contains (n + 3)) = some n := by
    obtain ⟨n, member, untaken⟩ := free
    exact Option.isSome_iff_exists.1 (List.find?_isSome.2 ⟨n, member, by simpa using untaken⟩)
  have named : surroundings.freeDescriptor = n + 3 := by
    simp only [freeDescriptor, found, Option.getD_some]
  have untaken : n + 3 ∉ surroundings.descriptors.map Prod.fst := by
    simpa using List.find?_some found
  rw [named, openFile?, List.lookup_eq_none_iff]
  intro entry listed
  have other : entry.1 ≠ n + 3 := fun same => untaken (same ▸ List.mem_map_of_mem listed)
  simpa using Ne.symm other

end Surroundings

/-! ## Machines that go on with what they have -/

/-- What is open stays open, and some files have been created at most. -/
structure Grows (before after : Machine) : Prop where
  tree : before.tree.Extends (permissionBits .ownerOnly) after.tree
  directory : after.session.directory = before.session.directory
  files : ∀ (file : OpenFileId) (old : OpenFile), before.files[file]? = some old →
    after.files[file]? = some old
  descriptors : ∀ descriptor file, before.session.openFile? descriptor = some file →
    after.session.openFile? descriptor = some file

namespace Grows

theorem refl (machine : Machine) : machine.Grows machine where
  tree := .refl _ _
  directory := rfl
  files := fun _ _ found => found
  descriptors := fun _ _ found => found

theorem trans {first second third : Machine} (left : first.Grows second)
    (right : second.Grows third) : first.Grows third where
  tree := left.tree.trans right.tree
  directory := right.directory.trans left.directory
  files := fun file old found => right.files file old (left.files file old found)
  descriptors := fun descriptor file found =>
    right.descriptors descriptor file (left.descriptors descriptor file found)

end Grows

/-- A handle of the session leads to where a path leads, for writing at the end if it appends. -/
def Holds (machine : Machine) (appends : Bool) (path : String) (handle : Handle) : Prop :=
  ∃ file node, machine.session.openFile? handle.number = some file ∧
    machine.files[file]? = some { target := .node node, appends := appends } ∧
    machine.tree.find machine.session.directory path = .ok node

theorem Grows.holds {before after : Machine} (grows : before.Grows after) {appends : Bool}
    {path : String} {handle : Handle} (holds : before.Holds appends path handle) :
    after.Holds appends path handle := by
  obtain ⟨file, node, opened, known, found⟩ := holds
  refine ⟨file, node, grows.descriptors _ _ opened, grows.files _ _ known, ?_⟩
  rw [grows.directory]
  exact grows.tree.found _ _ _ found

theorem Grows.holds_of_named {before after : Machine} (grows : before.Grows after) {appends : Bool}
    {path? : Option String} {handle? : Option Handle}
    (holds : Option.Rel (before.Holds appends) path? handle?) :
    Option.Rel (after.Holds appends) path? handle? := by
  cases holds with
  | some holds => exact .some (grows.holds holds)
  | none => exact .none

/-! ## Opening -/

section Opening

variable {machine after : Machine} {path : String} {handle : Handle} {node : NodeId}

/-- The session with a new open file for a node of a tree, and the handle of the file. -/
def openNode (machine : Machine) (tree : FileTree) (node : NodeId) (appends : Bool) :
    Handle × Machine :=
  let (file, machine) := { machine with tree := tree }.addFile
    { target := .node node, appends := appends }
  machine.giveHandle file .closed

@[simp]
theorem tree_openNode (machine : Machine) (tree : FileTree) (node : NodeId) (appends : Bool) :
    (machine.openNode tree node appends).2.tree = tree :=
  rfl

theorem openNode_grows {tree : FileTree}
    (larger : machine.tree.Extends (permissionBits .ownerOnly) tree) (node : NodeId)
    (appends : Bool) : machine.Grows (machine.openNode tree node appends).2 where
  tree := larger
  directory := rfl
  files := by
    intro file old known
    have inside : file < machine.files.size := (Array.getElem?_eq_some_iff.1 known).1
    have other : file ≠ machine.files.size := Nat.ne_of_lt inside
    simp [openNode, addFile, giveHandle, Array.getElem?_push, other, known]
  descriptors := by
    intro descriptor file opened
    have free := machine.session.openFile?_freeDescriptor
    have other : descriptor ≠ machine.session.freeDescriptor := by
      rintro rfl
      rw [free] at opened
      cases opened
    simp [openNode, addFile, giveHandle, Surroundings.openFile?_opening, other, opened]

theorem openNode_holds {tree : FileTree} {node : NodeId} (appends : Bool)
    (found : tree.find machine.session.directory path = .ok node) :
    (machine.openNode tree node appends).2.Holds appends path
      (machine.openNode tree node appends).1 := by
  refine ⟨machine.files.size, node, ?_, ?_, found⟩
  · simp [openNode, addFile, giveHandle, Surroundings.openFile?_opening]
  · simp [openNode, addFile, giveHandle]

/-- Opening for the session is refused and nothing has happened, or an open file is given. -/
theorem openForSession_cases (machine : Machine) (path : RawText)
    (opening : Machine → Except Errno (OpenFileId × Machine)) :
    (∃ fault, machine.openForSession path opening = (.error fault, machine)) ∨
      ∃ file opened, opening machine = .ok (file, opened) ∧
        machine.openForSession path opening =
          (.ok (opened.giveHandle file .closed).1, (opened.giveHandle file .closed).2) := by
  unfold openForSession
  by_cases nul : holdsNul path = true
  · exact .inl ⟨_, if_pos nul⟩
  by_cases long : FileTree.longestPath < path.size
  · exact .inl ⟨_, by rw [if_neg nul, if_pos long]⟩
  by_cases empty : path.isEmpty = true
  · exact .inl ⟨_, by rw [if_neg nul, if_neg long, if_pos empty]⟩
  by_cases full : (!machine.allows 1) = true
  · exact .inl ⟨_, by rw [if_neg nul, if_neg long, if_neg empty, if_pos full]⟩
  rw [if_neg nul, if_neg long, if_neg empty, if_neg full]
  cases opens : opening machine with
  | error reason => exact .inl ⟨_, rfl⟩
  | ok opened => exact .inr ⟨_, _, rfl, rfl⟩

/-- A file that is opened for reading is there. -/
theorem openInput_cases (machine : Machine) (path : RawText) :
    (∃ fault, machine.answer (.openInput path) = (.error fault, machine)) ∨
      ∃ node, machine.tree.find machine.session.directory path = .ok node ∧
        machine.answer (.openInput path) =
          (.ok (machine.openNode machine.tree node false).1,
            (machine.openNode machine.tree node false).2) := by
  obtain ⟨fault, refused⟩ | ⟨file, opened, opens, given⟩ := machine.openForSession_cases path
    fun machine => machine.openForReading machine.session.directory path
  · exact .inl ⟨fault, refused⟩
  · obtain ⟨node, found, same⟩ := FileTree.bind_eq_ok_iff.1 opens
    cases same
    exact .inr ⟨node, found, given⟩

/-- A file that is opened for appending is there, or it is created. -/
theorem openOutput_cases (machine : Machine) (path : RawText) (permissions : Permissions) :
    (∃ fault, machine.answer (.openOutput path permissions) = (.error fault, machine)) ∨
      ∃ node tree,
        machine.tree.findOrCreate machine.session.directory path (permissionBits permissions) =
          .ok (node, tree) ∧
        machine.answer (.openOutput path permissions) =
          (.ok (machine.openNode tree node true).1, (machine.openNode tree node true).2) := by
  obtain ⟨fault, refused⟩ | ⟨file, opened, opens, given⟩ := machine.openForSession_cases path
    fun machine =>
      machine.openForWriting machine.session.directory path true (permissionBits permissions)
  · exact .inl ⟨fault, refused⟩
  · obtain ⟨⟨node, tree⟩, created, same⟩ := FileTree.bind_eq_ok_iff.1 opens
    cases same
    exact .inr ⟨node, tree, created, given⟩

end Opening

/-! ## Writing -/

@[simp]
theorem overwrite_size (content bytes : ByteArray) :
    overwrite content bytes content.size = content ++ bytes := by
  have nothing : content.extract (content.size + bytes.size) content.size = ByteArray.empty := by
    simp
  have gap : ByteArray.mk (Array.replicate (content.size - content.size) 0) = ByteArray.empty := by
    rw [Nat.sub_self]
    rfl
  rw [overwrite, nothing, gap, ByteArray.extract_zero_size, ByteArray.append_empty,
    ByteArray.append_empty]

/-- The node that an open file leads to. -/
def nodeOf? (machine : Machine) (file : OpenFileId) : Option NodeId :=
  (machine.files[file]?).bind fun found =>
    match found.target with
    | .node node => some node
    | _ => none

/-- An open file that is written at the end of a node. -/
def Appends (machine : Machine) (file : OpenFileId) (node : NodeId) : Prop :=
  ∃ offset, machine.files[file]? =
    some { target := .node node, offset := offset, appends := true, direct := false }

private theorem Appends.nodeOf?_eq {machine : Machine} {file : OpenFileId} {node : NodeId}
    (appends : machine.Appends file node) : machine.nodeOf? file = some node := by
  obtain ⟨offset, found⟩ := appends
  simp [nodeOf?, found]

section Writing

variable {machine : Machine} {file : OpenFileId} {node : NodeId}

/-- Writing at the end of a file adds to it; what else is there for a write to go to is not
changed by it. -/
theorem writeTo_cases (appends : machine.Appends file node) (bytes : ByteArray) :
    (∃ content offset, machine.tree.body? node = some (.file content) ∧
      machine.writeTo file bytes = (.accepted bytes.size,
        { machine with tree := machine.tree.setBody node (.file (content ++ bytes)) }.moveTo file
          offset)) ∨
      machine.tree.content? node = none ∧ (machine.writeTo file bytes).2 = machine := by
  obtain ⟨offset, found⟩ := appends
  unfold writeTo FileTree.content?
  simp only [found]
  cases body : machine.tree.body? node with
  | none => exact .inr ⟨rfl, rfl⟩
  | some what =>
      cases what with
      | file content => exact .inl ⟨content, content.size + bytes.size, rfl, by simp⟩
      | directory | link | fifo | null | utility => exact .inr ⟨rfl, rfl⟩

private theorem content?_setBody (tree : FileTree) (content : ByteArray) (other : NodeId) :
    (tree.setBody node (.file content)).content? other =
      if other = node then (tree.body? node).map fun _ => content else tree.content? other := by
  unfold FileTree.content? FileTree.body?
  rw [FileTree.getElem?_setBody]
  by_cases same : other = node
  · subst same
    cases tree.nodes[other]? <;> simp
  · simp [same, Ne.symm same]

private theorem content?_writeTo (appends : machine.Appends file node) (bytes : ByteArray)
    (other : NodeId) :
    (machine.writeTo file bytes).2.tree.content? other =
      if other = node then (machine.tree.content? other).map fun content => content ++ bytes
      else machine.tree.content? other := by
  obtain ⟨content, offset, body, written⟩ | ⟨nothing, same⟩ := writeTo_cases appends bytes
  · have tree : (machine.writeTo file bytes).2.tree =
        machine.tree.setBody node (.file (content ++ bytes)) := by rw [written]; rfl
    rw [tree, content?_setBody]
    by_cases same : other = node
    · subst same
      simp [FileTree.content?, body]
    · simp [same]
  · rw [same]
    by_cases here : other = node
    · simp [here, nothing]
    · simp [here]

private theorem files_writeTo (appends : machine.Appends file node) (bytes : ByteArray)
    (other : OpenFileId) : ∃ offset : OpenFile → Nat,
      (machine.writeTo file bytes).2.files[other]? =
        (machine.files[other]?).map fun found => { found with offset := offset found } := by
  obtain ⟨content, offset, body, written⟩ | ⟨nothing, same⟩ := writeTo_cases appends bytes
  · refine ⟨fun found => if other = file then offset else found.offset, ?_⟩
    rw [written]
    simp only [moveTo, Array.getElem?_modify]
    by_cases here : other = file
    · simp [here]
    · simp [here, Ne.symm here]
  · exact ⟨OpenFile.offset, by simp [same]⟩

private theorem nodeOf?_writeTo (appends : machine.Appends file node) (bytes : ByteArray)
    (other : OpenFileId) :
    (machine.writeTo file bytes).2.nodeOf? other = machine.nodeOf? other := by
  obtain ⟨offset, found⟩ := files_writeTo appends bytes other
  unfold nodeOf?
  rw [found]
  cases machine.files[other]? <;> rfl

theorem Appends.writeTo (appends : machine.Appends file node) (bytes : ByteArray)
    {other : OpenFileId} {target : NodeId} (also : machine.Appends other target) :
    (machine.writeTo file bytes).2.Appends other target := by
  obtain ⟨offset, found⟩ := files_writeTo appends bytes other
  obtain ⟨place, known⟩ := also
  rw [known] at found
  exact ⟨_, found⟩

end Writing

/-! ## One write after the other -/

/-- What is written to open files one after the other. -/
def writeAll (machine : Machine) (writes : List (OpenFileId × ByteArray)) : Machine :=
  writes.foldl (fun machine write => (machine.writeTo write.1 write.2).2) machine

/-- What of it goes to a node. -/
def writtenTo (machine : Machine) (node : NodeId) (writes : List (OpenFileId × ByteArray)) :
    List ByteArray :=
  (writes.filter fun write => machine.nodeOf? write.1 = some node).map Prod.snd

/-- The files that are written at their end hold what they held, and after it what is written to
them, in the order in which it is written. -/
theorem content?_writeAll {machine : Machine} (writes : List (OpenFileId × ByteArray))
    (appending : ∀ write ∈ writes, ∃ node, machine.Appends write.1 node) (node : NodeId) :
    (machine.writeAll writes).tree.content? node =
      (machine.tree.content? node).map fun content =>
        (machine.writtenTo node writes).foldl (· ++ ·) content := by
  induction writes generalizing machine with
  | nil => simp [writeAll, writtenTo]
  | cons write writes inductionHypothesis =>
      obtain ⟨file, bytes⟩ := write
      obtain ⟨target, appends⟩ := appending _ List.mem_cons_self
      have still : ∀ later ∈ writes, ∃ node,
          (machine.writeTo file bytes).2.Appends later.1 node := by
        intro later listed
        obtain ⟨other, also⟩ := appending later (List.mem_cons_of_mem _ listed)
        exact ⟨other, appends.writeTo bytes also⟩
      have same : (machine.writeTo file bytes).2.writtenTo node writes =
          machine.writtenTo node writes := by
        simp only [writtenTo, nodeOf?_writeTo appends]
      have first : machine.writeAll ((file, bytes) :: writes) =
          (machine.writeTo file bytes).2.writeAll writes := rfl
      rw [first, inductionHypothesis still, same, content?_writeTo appends]
      by_cases here : node = target
      · simp [here, writtenTo, appends.nodeOf?_eq, Function.comp_def]
      · simp [here, writtenTo, appends.nodeOf?_eq, Ne.symm here]

end JobControl.Machine
