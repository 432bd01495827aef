import JobControl.Machine.FileTree
/-!
# Files that are opened for writing

A file that is missing is added to the end of its directory, and nothing else happens to the tree:
every node keeps its permissions and, but for that directory, what it is.  So a path that led to a
node leads to the same one, and only paths that led nowhere may lead to the new one.
-/

namespace JobControl.Machine

namespace FileTree

variable {tree : FileTree} {directory here : NodeId} {name : RawText} {content : ByteArray}
  {permissions : Nat}

/-! ## Nodes -/

private theorem directory?_eq_some_iff {parent : NodeId} {entries : List (RawText × NodeId)} :
    tree.directory? here = some (parent, entries) ↔
      tree.body? here = some (.directory parent entries) := by
  unfold directory?
  split <;> simp_all

private theorem body?_eq_some_iff {body : NodeBody} :
    tree.body? here = some body ↔ ∃ node, tree.nodes[here]? = some node ∧ node.body = body := by
  simp [body?]

theorem getElem?_setBody (tree : FileTree) (changed : NodeId) (body : NodeBody) (node : NodeId) :
    (tree.setBody changed body).nodes[node]? =
      if changed = node then (tree.nodes[node]?).map fun old => { old with body := body }
      else tree.nodes[node]? := by
  simp only [setBody, Array.getElem?_modify]

/-! ## Adding a file -/

/-- What adding a file to a directory does to a tree. -/
structure AddsFile (before after : FileTree) (directory : NodeId) (name : RawText)
    (file : Node) : Prop where
  size : after.nodes.size = before.nodes.size + 1
  added : after.nodes[before.nodes.size]? = some file
  kept : ∀ node old, node ≠ directory → before.nodes[node]? = some old →
    after.nodes[node]? = some old
  listed : ∃ permissions parent entries,
    before.nodes[directory]? = some ⟨permissions, .directory parent entries⟩ ∧
      entries.find? (fun entry => entry.1 = name) = none ∧
      after.nodes[directory]? =
        some ⟨permissions, .directory parent (entries ++ [(name, before.nodes.size)])⟩

private theorem add_snd (tree : FileTree) (directory : NodeId) (name : RawText) (node : Node) :
    (tree.add directory name node).2 = tree.nodes.size := by
  simp only [add]
  split <;> rfl

private theorem add_addsFile {parent : NodeId} {entries : List (RawText × NodeId)}
    (is_directory : tree.directory? directory = some (parent, entries))
    (lacks : entries.find? (fun entry => entry.1 = name) = none) (file : Node) :
    AddsFile tree (tree.add directory name file).1 directory name file := by
  obtain ⟨⟨permissions, body⟩, found, rfl⟩ :=
    body?_eq_some_iff.1 (directory?_eq_some_iff.1 is_directory)
  have inside : directory < tree.nodes.size := (Array.getElem?_eq_some_iff.1 found).1
  have pushed : ∀ node, node ≠ tree.nodes.size →
      (tree.nodes.push file)[node]? = tree.nodes[node]? := by
    intro node other
    rw [Array.getElem?_push, if_neg other]
  have still : ({ nodes := tree.nodes.push file } : FileTree).directory? directory =
      some (parent, entries) := by
    refine directory?_eq_some_iff.2 (body?_eq_some_iff.2
      ⟨⟨permissions, .directory parent entries⟩, ?_, rfl⟩)
    rw [pushed directory (Nat.ne_of_lt inside), found]
  have added : (tree.add directory name file).1 =
      ({ nodes := tree.nodes.push file } : FileTree).setBody directory
        (.directory parent (entries ++ [(name, tree.nodes.size)])) := by
    rw [add]
    simp only [still]
  rw [added]
  constructor
  · simp [setBody]
  · rw [getElem?_setBody, if_neg (Nat.ne_of_lt inside)]
    simp
  · intro node old other known
    have before : node < tree.nodes.size := (Array.getElem?_eq_some_iff.1 known).1
    rw [getElem?_setBody, if_neg (Ne.symm other), pushed node (Nat.ne_of_lt before), known]
  · refine ⟨permissions, parent, entries, found, lacks, ?_⟩
    rw [getElem?_setBody, if_pos rfl, pushed directory (Nat.ne_of_lt inside), found]
    rfl

namespace AddsFile

variable {before after : FileTree} {file : Node}

/-- A directory lists what it listed, and the file if it is in it. -/
theorem directory?_eq_some (adds : AddsFile before after directory name file) {parent : NodeId}
    {entries : List (RawText × NodeId)}
    (is_directory : before.directory? here = some (parent, entries)) :
    ∃ others, after.directory? here = some (parent, others) ∧
      ∀ sought, others.find? (fun entry => entry.1 = sought) =
        (entries.find? fun entry => entry.1 = sought).or
          (if here = directory ∧ sought = name then some (name, before.nodes.size) else none) := by
  obtain ⟨node, known, body⟩ := body?_eq_some_iff.1 (directory?_eq_some_iff.1 is_directory)
  by_cases same : here = directory
  · subst same
    obtain ⟨permissions, otherParent, listed, found, lacks, grown⟩ := adds.listed
    rw [found] at known
    cases known
    cases body
    refine ⟨_, directory?_eq_some_iff.2 (body?_eq_some_iff.2 ⟨_, grown, rfl⟩), fun sought => ?_⟩
    rw [List.find?_append]
    by_cases named : sought = name
    · simp [named]
    · simp [named, Ne.symm named]
  · have still := adds.kept here node same known
    refine ⟨entries, directory?_eq_some_iff.2 (body?_eq_some_iff.2 ⟨node, still, body⟩),
      fun sought => ?_⟩
    simp [same]

private theorem body?_cases (adds : AddsFile before after directory name file) (node : NodeId) :
    after.body? node = before.body? node ∨
      (node = before.nodes.size ∧ before.body? node = none ∧ after.body? node = some file.body) ∨
      ∃ parent entries others, before.body? node = some (.directory parent entries) ∧
        after.body? node = some (.directory parent others) := by
  obtain ⟨permissions, parent, entries, found, -, grown⟩ := adds.listed
  by_cases listing : node = directory
  · subst listing
    exact .inr (.inr ⟨parent, entries, entries ++ [(name, before.nodes.size)],
      by simp [body?, found], by simp [body?, grown]⟩)
  by_cases inside : node < before.nodes.size
  · have known : before.nodes[node]? = some before.nodes[node] := Array.getElem?_eq_getElem inside
    exact .inl (by simp [body?, known, adds.kept node _ listing known])
  · have outside : before.nodes[node]? = none := by simp [Nat.le_of_not_lt inside]
    by_cases last : node = before.nodes.size
    · subst last
      exact .inr (.inl ⟨rfl, by simp [body?], by simp [body?, adds.added]⟩)
    · have beyond : before.nodes.size + 1 ≤ node :=
        Nat.lt_of_le_of_ne (Nat.le_of_not_lt inside) (Ne.symm last)
      have none : after.nodes[node]? = none := by
        rw [Array.getElem?_eq_none_iff, adds.size]
        exact beyond
      exact .inl (by simp [body?, outside, none])

/-- What is no directory does not become one. -/
theorem directory?_eq_none (adds : AddsFile before after directory name file)
    (plain : file.body = .file content) (no_directory : before.directory? here = none) :
    after.directory? here = none := by
  unfold directory? at no_directory ⊢
  obtain same | ⟨-, -, added⟩ | ⟨parent, entries, others, was, -⟩ := adds.body?_cases here
  · rwa [same]
  · rw [added, plain]
  · rw [was] at no_directory
    cases no_directory

private theorem body?_link_iff (adds : AddsFile before after directory name file)
    (plain : file.body = .file content) {node : NodeId} {target : RawText} :
    after.body? node = some (.link target) ↔ before.body? node = some (.link target) := by
  obtain same | ⟨-, outside, added⟩ | ⟨parent, entries, others, was, is⟩ := adds.body?_cases node
  · rw [same]
  · simp [outside, added, plain]
  · simp [was, is]

end AddsFile

/-! ## Walking when a file has been added -/

/-- Where a place leads once a file has been added under a name that it may have. -/
def Place.withFile (directory : NodeId) (name : RawText) (file : NodeId) (place : Place) : Place :=
  if place.directory = directory ∧ place.name = name ∧ place.node = none then
    ⟨directory, name, some file⟩
  else place

/-- What becomes of a walk by adding a file: it leads to the same place, or fails for the same
reason, unless the missing name on its way is now the file. -/
inductive WalkBecomes (directory : NodeId) (name : RawText) (file : NodeId) :
    Except Errno Place → Except Errno Place → Prop
  | leads (place : Place) :
      WalkBecomes directory name file (.ok place) (.ok (place.withFile directory name file))
  | fails (reason : Errno) : WalkBecomes directory name file (.error reason) (.error reason)
  | blocked : WalkBecomes directory name file (.error .noEntry) (.error .notDirectory)

theorem WalkBecomes.known {name : RawText} {file : NodeId} (here : NodeId) (sought : RawText)
    (node : NodeId) : WalkBecomes directory name file (.ok ⟨here, sought, some node⟩)
      (.ok ⟨here, sought, some node⟩) := by
  have same : Place.withFile directory name file ⟨here, sought, some node⟩ =
      ⟨here, sought, some node⟩ := by simp [Place.withFile]
  have leads : WalkBecomes directory name file (.ok ⟨here, sought, some node⟩)
      (.ok (Place.withFile directory name file ⟨here, sought, some node⟩)) := .leads _
  rwa [same] at leads

section Names

variable {followLast : Bool} {links : Nat} {sought : RawText} {rest : List RawText}
  {parent : NodeId} {entries : List (RawText × NodeId)}

/-- A name that is looked up in a directory. -/
structure LooksUp (tree : FileTree) (here : NodeId) (sought : RawText) (parent : NodeId)
    (entries : List (RawText × NodeId)) : Prop where
  is_directory : tree.directory? here = some (parent, entries)
  named : ¬(sought.isEmpty || decide (sought = ".")) = true
  down : ¬sought = ".."
  short : ¬longestName < sought.size

private theorem LooksUp.walk_missing (looksUp : LooksUp tree here sought parent entries)
    (missing : entries.find? (fun entry => entry.1 = sought) = none) :
    tree.walk followLast links here (sought :: rest) =
      if rest.isEmpty then .ok ⟨here, sought, none⟩ else .error .noEntry := by
  rw [walk.eq_def]
  simp only [looksUp.is_directory, looksUp.named, looksUp.down, looksUp.short, missing, if_false,
    Bool.false_eq_true]

private theorem LooksUp.walk_link (looksUp : LooksUp tree here sought parent entries)
    {found : RawText × NodeId} (listed : entries.find? (fun entry => entry.1 = sought) = some found)
    {target : RawText} (link : tree.body? found.2 = some (.link target)) :
    tree.walk followLast links here (sought :: rest) =
      if rest.isEmpty && !followLast then .ok ⟨here, sought, some found.2⟩
      else
        match links with
        | 0 => .error .tooManyLinks
        | links + 1 =>
            tree.walk followLast links (if isAbsolute target then root else here)
              (names target ++ rest) := by
  cases links
  all_goals
    rw [walk.eq_def]
    simp only [looksUp.is_directory, looksUp.named, looksUp.down, looksUp.short, listed, link,
      if_false, Bool.false_eq_true]

private theorem LooksUp.walk_entry (looksUp : LooksUp tree here sought parent entries)
    {found : RawText × NodeId} (listed : entries.find? (fun entry => entry.1 = sought) = some found)
    (no_link : ∀ target, tree.body? found.2 ≠ some (.link target)) :
    tree.walk followLast links here (sought :: rest) =
      if rest.isEmpty then .ok ⟨here, sought, some found.2⟩
      else tree.walk followLast links found.2 rest := by
  rw [walk.eq_def]
  simp only [looksUp.is_directory, looksUp.named, looksUp.down, looksUp.short, listed, if_false,
    Bool.false_eq_true]

end Names

private theorem walk_up {followLast : Bool} {links : Nat} {rest : List RawText} {parent : NodeId}
    {entries : List (RawText × NodeId)}
    (is_directory : tree.directory? here = some (parent, entries)) :
    tree.walk followLast links here (".." :: rest) = tree.walk followLast links parent rest := by
  have named : ¬((RawText.ofText "..").isEmpty || decide (RawText.ofText ".." = ".")) = true := by
    decide
  rw [walk.eq_def]
  simp only [is_directory, named, if_true, if_false, Bool.false_eq_true]

/-- A walk by what its first name is: the names that are looked up are missing, lead to a link that
takes its place, or lead on. -/
theorem walk_induction (tree : FileTree) (followLast : Bool)
    {motive : Nat → NodeId → List RawText → Prop}
    (finished : ∀ links here, motive links here [])
    (blocked : ∀ links here sought rest, tree.directory? here = none →
      motive links here (sought :: rest))
    (stays : ∀ links here (sought : RawText) rest parent entries,
      tree.directory? here = some (parent, entries) →
      (sought.isEmpty || decide (sought = ".")) = true →
      motive links here rest → motive links here (sought :: rest))
    (moves : ∀ links here rest parent entries, tree.directory? here = some (parent, entries) →
      motive links parent rest → motive links here (".." :: rest))
    (long : ∀ links here (sought : RawText) rest parent entries,
      tree.directory? here = some (parent, entries) →
      ¬(sought.isEmpty || decide (sought = ".")) = true → ¬sought = ".." →
      longestName < sought.size → motive links here (sought :: rest))
    (missing : ∀ links here sought rest parent entries, LooksUp tree here sought parent entries →
      entries.find? (fun entry => entry.1 = sought) = none → motive links here (sought :: rest))
    (link : ∀ links here sought rest parent entries found target,
      LooksUp tree here sought parent entries →
      entries.find? (fun entry => entry.1 = sought) = some found →
      tree.body? found.2 = some (.link target) →
      (∀ fewer, links = fewer + 1 → ¬(rest.isEmpty && !followLast) = true →
        motive fewer (if isAbsolute target then root else here) (names target ++ rest)) →
      motive links here (sought :: rest))
    (entry : ∀ links here sought rest parent entries found,
      LooksUp tree here sought parent entries →
      entries.find? (fun entry => entry.1 = sought) = some found →
      (∀ target, tree.body? found.2 ≠ some (.link target)) →
      (¬rest.isEmpty = true → motive links found.2 rest) → motive links here (sought :: rest))
    (links : Nat) (here : NodeId) (path : List RawText) : motive links here path := by
  induction links, here, path using walk.induct tree followLast with
  | case1 links here => exact finished links here
  | case2 links here sought rest no_directory => exact blocked _ _ _ _ no_directory
  | case3 links here sought rest parent entries is_directory same inductionHypothesis =>
      exact stays _ _ _ _ _ _ is_directory same inductionHypothesis
  | case4 links here rest parent entries is_directory named inductionHypothesis =>
      exact moves _ _ _ _ _ is_directory inductionHypothesis
  | case5 links here sought rest parent entries is_directory named down tooLong =>
      exact long _ _ _ _ _ _ is_directory named down tooLong
  | case6 links here sought rest parent entries is_directory named down short none last =>
      exact missing _ _ _ _ _ _ ⟨is_directory, named, down, short⟩ none
  | case7 links here sought rest parent entries is_directory named down short none more =>
      exact missing _ _ _ _ _ _ ⟨is_directory, named, down, short⟩ none
  | case8 links here sought rest parent entries is_directory named down short key node listed target
      body last =>
      exact link _ _ _ _ _ _ _ _ ⟨is_directory, named, down, short⟩ listed body
        fun _ _ goesOn => absurd last goesOn
  | case9 here sought rest parent entries is_directory named down short key node listed target body
      goesOn =>
      exact link _ _ _ _ _ _ _ _ ⟨is_directory, named, down, short⟩ listed body
        fun _ none => absurd none.symm (Nat.succ_ne_zero _)
  | case10 here sought rest parent entries is_directory named down short key node listed target body
      goesOn links start inductionHypothesis =>
      refine link _ _ _ _ _ _ _ _ ⟨is_directory, named, down, short⟩ listed body ?_
      intro fewer same _
      cases same
      exact inductionHypothesis
  | case11 links here sought rest parent entries is_directory named down short key node listed last
      no_link =>
      exact entry _ _ _ _ _ _ _ ⟨is_directory, named, down, short⟩ listed no_link
        fun more => absurd last more
  | case12 links here sought rest parent entries is_directory named down short key node listed more
      no_link inductionHypothesis =>
      exact entry _ _ _ _ _ _ _ ⟨is_directory, named, down, short⟩ listed no_link
        fun _ => inductionHypothesis

private theorem AddsFile.looksUp {before after : FileTree} {file : Node}
    (adds : AddsFile before after directory name file) {sought : RawText} {parent : NodeId}
    {entries : List (RawText × NodeId)} (looksUp : LooksUp before here sought parent entries) :
    ∃ others, LooksUp after here sought parent others ∧
      others.find? (fun entry => entry.1 = sought) =
        (entries.find? fun entry => entry.1 = sought).or
          (if here = directory ∧ sought = name then some (name, before.nodes.size) else none) := by
  obtain ⟨others, still, listed⟩ := adds.directory?_eq_some looksUp.is_directory
  exact ⟨others, ⟨still, looksUp.named, looksUp.down, looksUp.short⟩, listed sought⟩

private theorem AddsFile.looksUp_of_listed {before after : FileTree} {file : Node}
    (adds : AddsFile before after directory name file) {sought : RawText} {parent : NodeId}
    {entries : List (RawText × NodeId)} (looksUp : LooksUp before here sought parent entries)
    {found : RawText × NodeId}
    (listed : entries.find? (fun entry => entry.1 = sought) = some found) :
    ∃ others, LooksUp after here sought parent others ∧
      others.find? (fun entry => entry.1 = sought) = some found := by
  obtain ⟨others, looksUpAfter, listedAfter⟩ := adds.looksUp looksUp
  rw [listed, Option.some_or] at listedAfter
  exact ⟨others, looksUpAfter, listedAfter⟩

/-- A name that is not listed leads nowhere, unless it is the one of the file. -/
theorem AddsFile.walk_missing {before after : FileTree} {file : Node}
    (adds : AddsFile before after directory name file) (plain : file.body = .file content)
    {sought : RawText} {parent : NodeId} {entries : List (RawText × NodeId)}
    (looksUp : LooksUp before here sought parent entries)
    (missing : entries.find? (fun entry => entry.1 = sought) = none)
    (followLast : Bool) (links : Nat) (rest : List RawText) :
    WalkBecomes directory name before.nodes.size
      (if rest.isEmpty then .ok ⟨here, sought, none⟩ else .error .noEntry)
      (after.walk followLast links here (sought :: rest)) := by
  obtain ⟨others, looksUpAfter, listed⟩ := adds.looksUp looksUp
  rw [missing, Option.none_or] at listed
  have leads : WalkBecomes directory name before.nodes.size (.ok ⟨here, sought, none⟩)
      (.ok (Place.withFile directory name before.nodes.size ⟨here, sought, none⟩)) := .leads _
  by_cases isFile : here = directory ∧ sought = name
  · rw [if_pos isFile] at listed
    have body : after.body? before.nodes.size = some (.file content) := by
      simp [body?, adds.added, plain]
    rw [looksUpAfter.walk_entry listed (by simp [body])]
    by_cases last : rest.isEmpty = true
    · rw [if_pos last, if_pos last]
      simpa [Place.withFile, isFile] using leads
    · have no_directory : after.directory? before.nodes.size = none := by
        simp [directory?, body]
      obtain ⟨next, others, rfl⟩ := List.exists_cons_of_ne_nil (by simpa using last)
      rw [if_neg last, if_neg last, walk.eq_def after]
      simp only [no_directory]
      exact .blocked
  · rw [if_neg isFile] at listed
    rw [looksUpAfter.walk_missing listed]
    by_cases last : rest.isEmpty = true
    · rw [if_pos last]
      have elsewhere : ¬(here = directory ∧ sought = name ∧ True) := by simpa using isFile
      simpa [Place.withFile, isFile] using leads
    · rw [if_neg last]
      exact .fails .noEntry

/-- Adding a file makes no other difference to a walk than that the file may be found on it. -/
theorem AddsFile.walk_becomes {before after : FileTree} {file : Node}
    (adds : AddsFile before after directory name file) (plain : file.body = .file content)
    (followLast : Bool) (links : Nat) (here : NodeId) (path : List RawText) :
    WalkBecomes directory name before.nodes.size (before.walk followLast links here path)
      (after.walk followLast links here path) := by
  induction links, here, path using walk_induction before followLast with
  | finished links here =>
      rw [walk.eq_def before, walk.eq_def after]
      exact .known here "" here
  | blocked links here sought rest no_directory =>
      rw [walk.eq_def before, walk.eq_def after]
      simp only [no_directory, adds.directory?_eq_none plain no_directory]
      exact .fails .notDirectory
  | stays links here sought rest parent entries is_directory stays inductionHypothesis =>
      obtain ⟨others, still, -⟩ := adds.directory?_eq_some is_directory
      rw [walk.eq_def before, walk.eq_def after]
      simp only [is_directory, still, stays, if_true]
      exact inductionHypothesis
  | moves links here rest parent entries is_directory inductionHypothesis =>
      obtain ⟨others, still, -⟩ := adds.directory?_eq_some is_directory
      rw [walk_up is_directory, walk_up still]
      exact inductionHypothesis
  | long links here sought rest parent entries is_directory named down tooLong =>
      obtain ⟨others, still, -⟩ := adds.directory?_eq_some is_directory
      rw [walk.eq_def before, walk.eq_def after]
      simp only [is_directory, still, named, down, tooLong, if_true, if_false, Bool.false_eq_true]
      exact .fails .nameTooLong
  | missing links here sought rest parent entries looksUp none =>
      rw [looksUp.walk_missing none]
      exact adds.walk_missing plain looksUp none followLast links rest
  | link links here sought rest parent entries found target looksUp listed body
      inductionHypothesis =>
      obtain ⟨others, looksUpAfter, listedAfter⟩ := adds.looksUp_of_listed looksUp listed
      rw [looksUp.walk_link listed body,
        looksUpAfter.walk_link listedAfter ((adds.body?_link_iff plain).2 body)]
      by_cases last : (rest.isEmpty && !followLast) = true
      · rw [if_pos last, if_pos last]
        exact .known here sought found.2
      · rw [if_neg last, if_neg last]
        cases links with
        | zero => exact .fails .tooManyLinks
        | succ fewer => exact inductionHypothesis fewer rfl last
  | entry links here sought rest parent entries found looksUp listed no_link inductionHypothesis =>
      obtain ⟨others, looksUpAfter, listedAfter⟩ := adds.looksUp_of_listed looksUp listed
      have still : ∀ target, after.body? found.2 ≠ some (.link target) :=
        fun target body => no_link target ((adds.body?_link_iff plain).1 body)
      rw [looksUp.walk_entry listed no_link, looksUpAfter.walk_entry listedAfter still]
      by_cases last : rest.isEmpty = true
      · rw [if_pos last, if_pos last]
        exact .known here sought found.2
      · rw [if_neg last, if_neg last]
        exact inductionHypothesis last

section Find

variable {before after : FileTree} {file : Node} {path : RawText} {node : NodeId}

private theorem AddsFile.locate_becomes (adds : AddsFile before after directory name file)
    (plain : file.body = .file content) (here : NodeId) (path : RawText) (followLast : Bool) :
    WalkBecomes directory name before.nodes.size (before.locate here path followLast)
      (after.locate here path followLast) := by
  unfold locate
  by_cases empty : path.isEmpty = true
  · rw [if_pos empty, if_pos empty]
    exact .fails .noEntry
  by_cases long : longestPath < path.size
  · rw [if_neg empty, if_neg empty, if_pos long, if_pos long]
    exact .fails .nameTooLong
  · rw [if_neg empty, if_neg empty, if_neg long, if_neg long]
    exact adds.walk_becomes plain followLast _ _ _

theorem bind_eq_ok_iff {α β : Type} {first : Except Errno α} {next : α → Except Errno β}
    {result : β} :
    first >>= next = .ok result ↔ ∃ middle, first = .ok middle ∧ next middle = .ok result := by
  cases first <;> simp [bind, Except.bind]

private theorem find_eq_ok_iff :
    tree.find here path = .ok node ↔
      ∃ place, tree.locate here path true = .ok place ∧ place.node = some node := by
  rw [find, bind_eq_ok_iff]
  refine exists_congr fun place => and_congr_right fun _ => ?_
  cases place.node <;> simp

theorem find_eq_error_iff {reason : Errno} :
    tree.find here path = .error reason ↔
      tree.locate here path true = .error reason ∨
        reason = .noEntry ∧
          ∃ place, tree.locate here path true = .ok place ∧ place.node = none := by
  unfold find
  cases tree.locate here path true with
  | error other => simp [bind, Except.bind]
  | ok place =>
      cases found : place.node with
      | none => simp [bind, Except.bind, found, eq_comm]
      | some other => simp [bind, Except.bind, found]

/-- A path that leads to a node leads to it when a file has been added. -/
theorem AddsFile.find_eq_ok (adds : AddsFile before after directory name file)
    (plain : file.body = .file content) (found : before.find here path = .ok node) :
    after.find here path = .ok node := by
  obtain ⟨place, located, leads⟩ := find_eq_ok_iff.1 found
  have becomes := adds.locate_becomes plain here path true
  rw [located] at becomes
  have same : place.withFile directory name before.nodes.size = place := by
    simp [Place.withFile, leads]
  generalize relocated : after.locate here path true = reached at becomes
  cases becomes
  rw [same] at relocated
  exact find_eq_ok_iff.2 ⟨place, relocated, leads⟩

/-- A path that leads nowhere for another reason than a missing name still leads nowhere. -/
theorem AddsFile.find_eq_error (adds : AddsFile before after directory name file)
    (plain : file.body = .file content) {reason : Errno} (other : reason ≠ .noEntry)
    (refused : before.find here path = .error reason) : after.find here path = .error reason := by
  obtain located | ⟨missing, -⟩ := find_eq_error_iff.1 refused
  · have becomes := adds.locate_becomes plain here path true
    rw [located] at becomes
    generalize relocated : after.locate here path true = reached at becomes
    cases becomes with
    | fails => exact find_eq_error_iff.2 (.inl relocated)
    | blocked => exact absurd rfl other
  · exact absurd missing other

/-- A path on which a name was missing can lead to the file only. -/
theorem AddsFile.eq_of_missing (adds : AddsFile before after directory name file)
    (plain : file.body = .file content) (missing : before.find here path = .error .noEntry)
    (found : after.find here path = .ok node) : node = before.nodes.size := by
  obtain ⟨reached, relocated, leads⟩ := find_eq_ok_iff.1 found
  have becomes := adds.locate_becomes plain here path true
  obtain located | ⟨-, place, located, nowhere⟩ := find_eq_error_iff.1 missing
  · rw [located, relocated] at becomes
    cases becomes
  · rw [located, relocated] at becomes
    cases becomes
    unfold Place.withFile at leads
    split at leads
    · cases leads
      rfl
    · rw [nowhere] at leads
      cases leads

/-- The path under which the file was missing leads to it. -/
theorem AddsFile.find_added (adds : AddsFile before after directory name file)
    (plain : file.body = .file content)
    (located : before.locate here path true = .ok ⟨directory, name, none⟩) :
    after.find here path = .ok before.nodes.size := by
  have becomes := adds.locate_becomes plain here path true
  rw [located] at becomes
  generalize relocated : after.locate here path true = reached at becomes
  cases becomes
  exact find_eq_ok_iff.2 ⟨_, relocated, by simp [Place.withFile]⟩

end Find

/-! ## Trees that only grow -/

/-- A file that has just been created. -/
def newFile (permissions : Nat) : Node :=
  { permissions := permissions, body := .file ByteArray.empty }

/-- The node as it was, or the directory with more in it. -/
def Node.Keeps (before after : Node) : Prop :=
  after.permissions = before.permissions ∧
    (after.body = before.body ∨
      ∃ parent entries added, before.body = .directory parent entries ∧
        after.body = .directory parent (entries ++ added))

theorem Node.Keeps.refl (node : Node) : Node.Keeps node node :=
  ⟨rfl, .inl rfl⟩

theorem Node.Keeps.trans {first second third : Node} (left : Node.Keeps first second)
    (right : Node.Keeps second third) : Node.Keeps first third := by
  obtain ⟨leftPermissions, left⟩ := left
  obtain ⟨rightPermissions, right⟩ := right
  refine ⟨rightPermissions.trans leftPermissions, ?_⟩
  obtain same | ⟨parent, entries, added, was, is⟩ := left
  · rwa [same] at right
  · obtain same | ⟨_, _, later, wasToo, isToo⟩ := right
    · exact .inr ⟨parent, entries, added, was, same.trans is⟩
    · rw [is] at wasToo
      cases wasToo
      exact .inr ⟨parent, entries, added ++ later, was, by rw [isToo, List.append_assoc]⟩

/-- Some files have been created in a tree, and nothing else has happened. -/
structure Extends (permissions : Nat) (before after : FileTree) : Prop where
  size : before.nodes.size ≤ after.nodes.size
  kept : ∀ (node : NodeId) (old : Node), before.nodes[node]? = some old →
    ∃ still : Node, after.nodes[node]? = some still ∧ Node.Keeps old still
  made : ∀ node : NodeId, before.nodes.size ≤ node → node < after.nodes.size →
    after.nodes[node]? = some (newFile permissions)
  found : ∀ here path node, before.find here path = .ok node → after.find here path = .ok node
  refused : ∀ here path reason, reason ≠ .noEntry → before.find here path = .error reason →
    after.find here path = .error reason
  missing : ∀ here path node, before.find here path = .error .noEntry →
    after.find here path = .ok node → before.nodes.size ≤ node ∧ node < after.nodes.size

namespace Extends

theorem refl (permissions : Nat) (tree : FileTree) : Extends permissions tree tree where
  size := Nat.le_refl _
  kept := fun _ old known => ⟨old, known, .refl old⟩
  made := fun _ outside inside => absurd inside (Nat.not_lt.2 outside)
  found := fun _ _ _ found => found
  refused := fun _ _ _ _ refused => refused
  missing := by
    intro here path node missing found
    rw [missing] at found
    cases found

variable {first second third : FileTree}

theorem trans (left : Extends permissions first second) (right : Extends permissions second third) :
    Extends permissions first third where
  size := Nat.le_trans left.size right.size
  kept := by
    intro node old known
    obtain ⟨still, found, keeps⟩ := left.kept node old known
    obtain ⟨last, foundLast, keepsLast⟩ := right.kept node still found
    exact ⟨last, foundLast, keeps.trans keepsLast⟩
  made := by
    intro node outside inside
    by_cases early : node < second.nodes.size
    · have made := left.made node outside early
      obtain ⟨⟨_, _⟩, found, rfl, same | ⟨_, _, _, is_directory, -⟩⟩ := right.kept node _ made
      · cases same
        exact found
      · cases is_directory
    · exact right.made node (Nat.le_of_not_lt early) inside
  found := fun here path node found => right.found here path node (left.found here path node found)
  refused := fun here path reason other refused =>
    right.refused here path reason other (left.refused here path reason other refused)
  missing := by
    intro here path node missing found
    cases meanwhile : second.find here path with
    | ok other =>
        have same := right.found here path other meanwhile
        rw [found] at same
        cases same
        obtain ⟨outside, inside⟩ := left.missing here path node missing meanwhile
        exact ⟨outside, Nat.lt_of_lt_of_le inside right.size⟩
    | error reason =>
        by_cases other : reason = .noEntry
        · subst other
          obtain ⟨outside, inside⟩ := right.missing here path node meanwhile found
          exact ⟨Nat.le_trans left.size outside, inside⟩
        · have still := right.refused here path reason other meanwhile
          rw [found] at still
          cases still

/-- A path that leads nowhere for a missing name led nowhere for one. -/
theorem missing_before (larger : Extends permissions first second) {path : RawText}
    (missing : second.find here path = .error .noEntry) :
    first.find here path = .error .noEntry := by
  cases earlier : first.find here path with
  | ok node =>
      have still := larger.found here path node earlier
      rw [missing] at still
      cases still
  | error reason =>
      by_cases other : reason = .noEntry
      · rw [other]
      · have still := larger.refused here path reason other earlier
        rw [missing] at still
        cases still
        exact absurd rfl other

end Extends

theorem AddsFile.extends {before after : FileTree}
    (adds : AddsFile before after directory name (newFile permissions)) :
    Extends permissions before after where
  size := by
    rw [adds.size]
    exact Nat.le_succ _
  kept := by
    intro node old known
    by_cases listing : node = directory
    · subst listing
      obtain ⟨bits, parent, entries, found, -, grown⟩ := adds.listed
      rw [known] at found
      cases found
      exact ⟨_, grown, rfl, .inr ⟨parent, entries, _, rfl, rfl⟩⟩
    · exact ⟨old, adds.kept node old listing known, .refl old⟩
  made := by
    intro node outside inside
    rw [adds.size] at inside
    obtain rfl : node = before.nodes.size := Nat.le_antisymm (Nat.le_of_lt_succ inside) outside
    exact adds.added
  found := fun _ _ _ found => adds.find_eq_ok rfl found
  refused := fun _ _ _ other refused => adds.find_eq_error rfl other refused
  missing := by
    intro here path node missing found
    rw [adds.eq_of_missing rfl missing found, adds.size]
    exact ⟨Nat.le_refl _, Nat.lt_succ_self _⟩

/-! ## Opening for writing -/

/-- A walk that comes to a name without a node comes to a directory that does not list it. -/
theorem lacks_of_walk {followLast : Bool} {links : Nat} {path : List RawText} {place : Place}
    (walked : tree.walk followLast links here path = .ok place) (nowhere : place.node = none) :
    ∃ parent entries, tree.directory? place.directory = some (parent, entries) ∧
      entries.find? (fun entry => entry.1 = place.name) = none := by
  induction links, here, path using walk_induction tree followLast with
  | finished links here =>
      rw [walk.eq_def] at walked
      cases walked
      cases nowhere
  | blocked links here sought rest no_directory =>
      rw [walk.eq_def] at walked
      simp [no_directory] at walked
  | stays links here sought rest parent entries is_directory stays inductionHypothesis =>
      rw [walk.eq_def] at walked
      simp only [is_directory, stays, if_true] at walked
      exact inductionHypothesis walked
  | moves links here rest parent entries is_directory inductionHypothesis =>
      rw [walk_up is_directory] at walked
      exact inductionHypothesis walked
  | long links here sought rest parent entries is_directory named down tooLong =>
      rw [walk.eq_def] at walked
      simp [is_directory, named, down, tooLong] at walked
  | missing links here sought rest parent entries looksUp none =>
      rw [looksUp.walk_missing none] at walked
      by_cases last : rest.isEmpty = true
      · rw [if_pos last] at walked
        cases walked
        exact ⟨parent, entries, looksUp.is_directory, none⟩
      · rw [if_neg last] at walked
        cases walked
  | link links here sought rest parent entries found target looksUp listed body
      inductionHypothesis =>
      rw [looksUp.walk_link listed body] at walked
      by_cases last : (rest.isEmpty && !followLast) = true
      · rw [if_pos last] at walked
        cases walked
        cases nowhere
      · rw [if_neg last] at walked
        cases links with
        | zero => cases walked
        | succ fewer => exact inductionHypothesis fewer rfl last walked
  | entry links here sought rest parent entries found looksUp listed no_link inductionHypothesis =>
      rw [looksUp.walk_entry listed no_link] at walked
      by_cases last : rest.isEmpty = true
      · rw [if_pos last] at walked
        cases walked
        cases nowhere
      · rw [if_neg last] at walked
        exact inductionHypothesis last walked

private theorem lacks_of_locate {path : RawText} {followLast : Bool} {place : Place}
    (located : tree.locate here path followLast = .ok place) (nowhere : place.node = none) :
    ∃ parent entries, tree.directory? place.directory = some (parent, entries) ∧
      entries.find? (fun entry => entry.1 = place.name) = none := by
  unfold locate at located
  by_cases empty : path.isEmpty = true
  · simp [empty] at located
  by_cases long : longestPath < path.size
  · simp [empty, long] at located
  · rw [if_neg empty, if_neg long] at located
    exact lacks_of_walk located nowhere

/-- A file is opened for writing where the path leads, or where it leads to nothing a file is
created. -/
theorem findOrCreate_eq_ok {after : FileTree} {path : RawText} {node : NodeId}
    (opened : tree.findOrCreate here path permissions = .ok (node, after)) :
    (tree.find here path = .ok node ∧ tree.directory? node = none ∧ after = tree) ∨
      ∃ directory name, tree.locate here path true = .ok ⟨directory, name, none⟩ ∧
        node = tree.nodes.size ∧ AddsFile tree after directory name (newFile permissions) := by
  unfold findOrCreate at opened
  by_cases ends : path.endsWith "/" = true
  · rw [if_pos ends] at opened
    by_cases long : longestPath < path.size
    · simp [long] at opened
    · rw [if_neg long] at opened
      obtain ⟨_, _, refused⟩ := bind_eq_ok_iff.1 opened
      cases refused
  rw [if_neg ends] at opened
  obtain ⟨⟨directory, name, leads⟩, located, opened⟩ := bind_eq_ok_iff.1 opened
  cases leads with
  | some other =>
      cases is_directory : tree.directory? other with
      | some _ => simp [is_directory] at opened
      | none =>
          simp only [is_directory, Except.ok.injEq, Prod.mk.injEq] at opened
          obtain ⟨rfl, rfl⟩ := opened
          exact .inl ⟨find_eq_ok_iff.2 ⟨_, located, rfl⟩, is_directory, rfl⟩
  | none =>
      by_cases reachable : tree.isReachable directory = true
      · simp only [reachable, if_true, Except.ok.injEq, Prod.mk.injEq] at opened
        obtain ⟨rfl, rfl⟩ := opened
        obtain ⟨parent, entries, is_directory, lacks⟩ := lacks_of_locate located rfl
        exact .inr ⟨directory, name, located, add_snd .., add_addsFile is_directory lacks _⟩
      · simp [reachable] at opened

end FileTree

end JobControl.Machine
