import JobControl.Machine.Answer
/-!
# Stages

A stage is a fresh machine on which a session can be tried.  It has the programs of the machine, a
working directory with some files and a home directory, and a standard input; what is written to
the output and to the errors is kept apart.
-/

namespace JobControl.Machine

/-! ## Files -/

/-- A file to be put on a stage. -/
inductive StagedFile where
  /-- A file with a content, and permissions if they are not the usual ones. -/
  | file (content : ByteArray) (permissions : Option Nat)
  | directory
  | link (target : RawText)
  | fifo

def filePermissions : Nat := 0o644

/-- The names on the way to a path, and its last name. -/
def splitPath (path : RawText) : List RawText × RawText :=
  let names := (FileTree.names path).filter fun name : RawText => !name.isEmpty && name ≠ "."
  (names.dropLast, names.getLastD "")

/-- Writes a content to a node, with permissions if they are given. -/
def overwriteNode (tree : FileTree) (node : NodeId) (content : ByteArray)
    (permissions : Option Nat) : FileTree :=
  { nodes := tree.nodes.modify node fun old =>
      { permissions := permissions.getD old.permissions, body := .file content } }

/-- Puts a file into a directory of a tree, with the directories on the way to it. -/
def putFile (tree : FileTree) (directory : NodeId) (path : RawText) (file : StagedFile) :
    FileTree :=
  let (names, name) := splitPath path
  let directory := if FileTree.isAbsolute path then FileTree.root else directory
  let (tree, parent) := tree.ensureDirectories directory names
  match file with
  | .directory => (tree.ensureDirectory parent name).1
  | .link target => (tree.add parent name { permissions := 0o777, body := .link target }).1
  | .fifo => (tree.add parent name { permissions := filePermissions, body := .fifo }).1
  | .file content permissions =>
      match tree.findOrCreate parent name filePermissions with
      | .ok (node, tree) => overwriteNode tree node content permissions
      | .error _ => tree

def putFiles (tree : FileTree) (directory : NodeId) (files : List (String × StagedFile)) :
    FileTree :=
  files.foldl (fun tree file => putFile tree directory file.1 file.2) tree

/-! ## The tree of a stage -/

def stageDirectory : String := "/tmp/stage.70999"

def workDirectory : String := stageDirectory ++ "/w"

def homeDirectory : String := workDirectory ++ "/home"

def putUtilities (tree : FileTree) (directory : NodeId) : FileTree :=
  Utility.all.foldl
    (fun tree utility =>
      (tree.add directory utility.name { permissions := 0o755, body := .utility utility }).1)
    tree

def directoriesOf (path : RawText) : List RawText :=
  let (names, name) := splitPath path
  names ++ [name]

def usualDirectories : List (List RawText) :=
  [["usr", "local", "bin"], ["usr", "lib"], ["usr", "sbin"], ["usr", "share"], ["root"], ["home"],
   ["etc"], ["var"], ["opt"], ["mnt"], ["srv"], ["run"], ["proc", "self", "fd"], ["sys"], ["boot"],
   ["media"],
   directoriesOf homeDirectory]

def usualLinks : List (RawText × RawText) :=
  [("bin", "usr/bin"), ("sbin", "usr/sbin"), ("lib", "usr/lib")]

/-- The tree of a stage without the files put on it, and its working directory. -/
def stageTree : FileTree × NodeId :=
  let tree := usualDirectories.foldl
    (fun tree names => (tree.ensureDirectories FileTree.root names).1) FileTree.empty
  let tree := usualLinks.foldl
    (fun tree (name, target) =>
      (tree.add FileTree.root name { permissions := 0o777, body := .link target }).1)
    tree
  let (tree, programs) := tree.ensureDirectories FileTree.root ["usr", "bin"]
  let tree := putUtilities tree programs
  let (tree, devices) := tree.ensureDirectories FileTree.root ["dev"]
  let (tree, _) := tree.add devices "null" { permissions := 0o666, body := .null }
  tree.ensureDirectories FileTree.root (directoriesOf workDirectory)

/-- What a stage is set up with. -/
structure StageSettings where
  files : List (String × StagedFile) := []
  input : ByteArray := ByteArray.empty
  path : String := "/usr/local/bin:/usr/bin:/bin"
  terminal : String := "xterm"
  environment : List (String × String) := []

def openUnnamed (machine : Machine) (content : ByteArray) (appends : Bool) :
    OpenFileId × Machine :=
  let node := machine.tree.nodes.size
  let nodes := machine.tree.nodes.push { permissions := filePermissions, body := .file content }
  { machine with tree := { nodes := nodes } }.addFile { target := .node node, appends := appends }

/-- Gives the session a standard input with some content, of which nothing has been read. -/
def withInput (machine : Machine) (content : ByteArray) : Machine :=
  let (file, machine) := machine.openUnnamed content false
  { machine with
    session := machine.session.opening 0 file
    inputBuffer := ByteArray.empty }

/-- Gives the files of the output and of the errors the names that the system has for them. -/
def linkStreams (tree : FileTree) (session : Surroundings) (files : Array OpenFile) : FileTree :=
  let (tree, directory) := tree.ensureDirectories FileTree.root ["proc", "self", "fd"]
  [1, 2].foldl
    (fun tree descriptor =>
      match (session.openFile? descriptor).bind fun file => files[file]? with
      | some ⟨.node node, _, _, _⟩ => tree.link directory (toString descriptor) node
      | _ => tree)
    tree

def ofSettings (settings : StageSettings) : Machine :=
  let (tree, work) := stageTree
  let environment :=
    [("HOME", homeDirectory), ("PATH", settings.path), ("TERM", settings.terminal),
      ("LC_ALL", "C"), ("TZ", "UTC")]
  let session : Surroundings :=
    { descriptors := [], directory := work, environment := environment }
  let session := settings.environment.foldl (fun session entry => session.setting entry.1 entry.2)
    session
  let machine : Machine := { tree := putFiles tree work settings.files, session := session }
  let machine := machine.withInput settings.input
  let (output, machine) := machine.openUnnamed ByteArray.empty true
  let (errors, machine) := machine.openUnnamed ByteArray.empty true
  let session := (machine.session.opening 1 output).opening 2 errors
  { machine with tree := linkStreams machine.tree session machine.files, session := session }

/-! ## What has been written -/

/-- Takes what has been written to a descriptor of the session since the last time. -/
def takeWritten (machine : Machine) (descriptor : Nat) : ByteArray × Machine :=
  match (machine.session.openFile? descriptor).bind fun file => machine.files[file]? with
  | some ⟨.node node, _, _, _⟩ =>
      match machine.tree.content? node with
      | some content =>
          (content,
            { machine with tree := machine.tree.setBody node (.file ByteArray.empty) })
      | none => (ByteArray.empty, machine)
  | _ => (ByteArray.empty, machine)

/-- Takes what has been written to the place that the caller provided. -/
def takeProvided (machine : Machine) : String × Machine :=
  (machine.provided, { machine with provided := "" })

/-! ## Listing -/

/-- A line of a listing of files. -/
inductive Listed where
  | directory (path : String) (permissions : Nat)
  | file (path : String) (permissions : Nat) (content : ByteArray)
  | other (path : String)

def listed? (tree : FileTree) (entry : RawText × NodeId) : Option Listed :=
  (tree.nodes[entry.2]?).map fun node =>
    match node.body with
    | .file content => .file entry.1.shown node.permissions content
    | .directory _ _ => .directory entry.1.shown node.permissions
    | _ => .other entry.1.shown

/-- The files in the working directory of a stage, each directory before what is in it. -/
def listing (machine : Machine) : List Listed :=
  match machine.tree.find FileTree.root workDirectory with
  | .ok work =>
      (machine.tree.listing work "" machine.tree.nodes.size).filterMap (listed? machine.tree)
  | .error _ => []

end JobControl.Machine
