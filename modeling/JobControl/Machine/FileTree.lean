import JobControl.System.Call
/-!
# The file tree

Files, directories and links are nodes, known by their place in an array; a directory has names
for nodes.  A path is walked from directory to directory.  A symbolic link on the way is replaced
by the path that it holds, at most forty times in one walk, and the last name of a path is followed
too unless the link itself is meant.  Names and paths are raw text, and a slash stands between
names.  The user of the tree is its owner: reading and writing need no permission, and running a
file needs that someone may run it.
-/

namespace JobControl.Machine

/-- The programs that the machine has. -/
inductive Utility where
  | succeed
  | fail
  | echo
  | cat
  | sort
  | head
  | wc
  | tr
  | printf
  | seq
  | yes
  | sleep
  | pwd
  | grep
  | dd
  | mv
  | xargs
  | shell
  deriving DecidableEq, Repr

abbrev NodeId := Nat

/-- What a node is. -/
inductive NodeBody where
  | file (content : ByteArray)
  | directory (parent : NodeId) (entries : List (RawText × NodeId))
  | link (target : RawText)
  | fifo
  /-- The device that is always empty and forgets what is written to it. -/
  | null
  | utility (utility : Utility)

/-- A node with its nine permission bits. -/
structure Node where
  permissions : Nat
  body : NodeBody

/-- All nodes; the first is the root directory. -/
structure FileTree where
  nodes : Array Node

namespace FileTree

def root : NodeId := 0

def empty : FileTree :=
  { nodes := #[{ permissions := 0o755, body := .directory root [] }] }

def body? (tree : FileTree) (node : NodeId) : Option NodeBody :=
  (tree.nodes[node]?).map Node.body

def directory? (tree : FileTree) (node : NodeId) : Option (NodeId × List (RawText × NodeId)) :=
  match tree.body? node with
  | some (.directory parent entries) => some (parent, entries)
  | _ => none

def content? (tree : FileTree) (node : NodeId) : Option ByteArray :=
  match tree.body? node with
  | some (.file content) => some content
  | _ => none

def setBody (tree : FileTree) (node : NodeId) (body : NodeBody) : FileTree :=
  { nodes := tree.nodes.modify node fun old => { old with body := body } }

def add (tree : FileTree) (directory : NodeId) (name : RawText) (node : Node) :
    FileTree × NodeId :=
  let id := tree.nodes.size
  let tree : FileTree := { nodes := tree.nodes.push node }
  match tree.directory? directory with
  | some (parent, entries) =>
      (tree.setBody directory (.directory parent (entries ++ [(name, id)])), id)
  | none => (tree, id)

/-! ## Where directories are -/

def nameIn? (tree : FileTree) (directory node : NodeId) : Option RawText :=
  (tree.directory? directory).bind fun (_, entries) =>
    (entries.find? fun entry => entry.2 = node).map Prod.fst

/-- The path of a directory, climbing at most as often as said; a directory that has been removed
has none. -/
def pathFrom? (tree : FileTree) (directory : NodeId) : Nat → Option (List RawText)
  | 0 => none
  | climbs + 1 =>
      if directory = root then some []
      else
        (tree.directory? directory).bind fun (parent, _) =>
          (tree.nameIn? parent directory).bind fun name =>
            (tree.pathFrom? parent climbs).map fun names => names ++ [name]

def slash : UInt8 := 47

/-- The path that names from the root make: a slash before each, or only a slash. -/
def pathOf (names : List RawText) : RawText :=
  if names.isEmpty then "/" else ⟨names.flatMap fun name => slash :: name.bytes⟩

def path? (tree : FileTree) (directory : NodeId) : Option RawText :=
  (tree.pathFrom? directory tree.nodes.size).map pathOf

def isReachable (tree : FileTree) (directory : NodeId) : Bool :=
  (tree.pathFrom? directory tree.nodes.size).isSome

/-! ## Walking a path -/

/-- Where a path leads: a name in a directory, with its node if there is one.  The name is empty
when the path ends in a directory that it does not name. -/
structure Place where
  directory : NodeId
  name : RawText
  node : Option NodeId

def longestName : Nat := 255

def longestPath : Nat := 4095

def mostLinks : Nat := 40

/-- The names of a path; a slash at its end gives an empty last name. -/
def names (path : RawText) : List RawText :=
  path.cutAt (· = slash)

def isAbsolute (path : RawText) : Bool :=
  path.startsWith "/"

/-- Walks names from a directory.  `links` is how many more links may be followed, and
`followLast` whether a link at the end is. -/
def walk (tree : FileTree) (followLast : Bool) (links : Nat) (here : NodeId)
    (path : List RawText) : Except Errno Place :=
  match path with
  | [] => .ok ⟨here, "", some here⟩
  | name :: rest =>
      match tree.directory? here with
      | none => .error .notDirectory
      | some (parent, entries) =>
          if name.isEmpty || name = "." then walk tree followLast links here rest
          else if name = ".." then walk tree followLast links parent rest
          else if longestName < name.size then .error .nameTooLong
          else
            match entries.find? fun entry => entry.1 = name with
            | none => if rest.isEmpty then .ok ⟨here, name, none⟩ else .error .noEntry
            | some (_, node) =>
                match tree.body? node with
                | some (.link target) =>
                    if rest.isEmpty && !followLast then .ok ⟨here, name, some node⟩
                    else
                      match links with
                      | 0 => .error .tooManyLinks
                      | links + 1 =>
                          let start := if isAbsolute target then root else here
                          walk tree followLast links start (names target ++ rest)
                | _ =>
                    if rest.isEmpty then .ok ⟨here, name, some node⟩
                    else walk tree followLast links node rest
termination_by (links, path.length)

def locate (tree : FileTree) (here : NodeId) (path : RawText) (followLast : Bool) :
    Except Errno Place :=
  if path.isEmpty then .error .noEntry
  else if longestPath < path.size then .error .nameTooLong
  else walk tree followLast mostLinks (if isAbsolute path then root else here) (names path)

def find (tree : FileTree) (here : NodeId) (path : RawText) : Except Errno NodeId := do
  let place ← tree.locate here path true
  match place.node with
  | some node => .ok node
  | none => .error .noEntry

def findDirectory (tree : FileTree) (here : NodeId) (path : RawText) : Except Errno NodeId := do
  let node ← tree.find here path
  match tree.directory? node with
  | some _ => .ok node
  | none => .error .notDirectory

/-! ## Files for writing -/

def withoutEndSlashes (path : RawText) : RawText :=
  ⟨(path.bytes.reverse.dropWhile (· = slash)).reverse⟩

/-- The node to write to under a path, from a directory on.  A missing file is created empty with
the permissions given; a directory is never written to. -/
def findOrCreate (tree : FileTree) (here : NodeId) (path : RawText) (permissions : Nat) :
    Except Errno (NodeId × FileTree) := do
  if path.endsWith "/" then
    if longestPath < path.size then
      .error .nameTooLong
    else
      let _ ← walk tree false mostLinks (if isAbsolute path then root else here)
        (names (withoutEndSlashes path))
      .error .isDirectory
  else
    let place ← tree.locate here path true
    match place.node with
    | some node =>
        match tree.directory? node with
        | some _ => .error .isDirectory
        | none => .ok (node, tree)
    | none =>
        if tree.isReachable place.directory then
          let (tree, node) := tree.add place.directory place.name
            { permissions := permissions, body := .file ByteArray.empty }
          .ok (node, tree)
        else
          .error .noEntry

/-! ## Building and removing -/

/-- Makes a directory under a name in a directory unless the name is taken; the node of the
name. -/
def ensureDirectory (tree : FileTree) (directory : NodeId) (name : RawText) :
    FileTree × NodeId :=
  match tree.directory? directory with
  | some (_, entries) =>
      match entries.find? fun entry => entry.1 = name with
      | some (_, node) => (tree, node)
      | none => tree.add directory name
          { permissions := 0o755, body := .directory directory [] }
  | none => (tree, directory)

/-- Makes the directories of some names, each in the one before it. -/
def ensureDirectories (tree : FileTree) (directory : NodeId) : List RawText → FileTree × NodeId
  | [] => (tree, directory)
  | name :: rest =>
      let (tree, next) := tree.ensureDirectory directory name
      tree.ensureDirectories next rest

def unlink (tree : FileTree) (directory : NodeId) (name : RawText) : FileTree :=
  match tree.directory? directory with
  | some (parent, entries) =>
      tree.setBody directory (.directory parent (entries.filter fun entry => entry.1 ≠ name))
  | none => tree

/-- Gives a node a name in a directory. -/
def link (tree : FileTree) (directory : NodeId) (name : RawText) (node : NodeId) : FileTree :=
  match tree.directory? directory with
  | some (parent, entries) =>
      tree.setBody directory (.directory parent (entries ++ [(name, node)]))
  | none => tree

/-- Gives a file another name in its directory, one that is free. -/
def rename (tree : FileTree) (here : NodeId) (path renamed : RawText) :
    Except Errno FileTree := do
  let source ← tree.locate here path false
  let target ← tree.locate here renamed false
  match source.node, target.node with
  | none, _ => .error .noEntry
  | some _, some _ => .error .exists
  | some node, none =>
      if source.name.isEmpty || source.directory ≠ target.directory then .error .invalidArgument
      else .ok ((tree.unlink source.directory source.name).link target.directory target.name node)

/-- The nodes of a directory and of what is in it, down to a depth. -/
def within (tree : FileTree) (node : NodeId) : Nat → List NodeId
  | 0 => [node]
  | depth + 1 =>
      match tree.directory? node with
      | some (_, entries) => node :: entries.flatMap fun entry => tree.within entry.2 depth
      | none => [node]

def emptyDirectory (tree : FileTree) (node : NodeId) : FileTree :=
  match tree.directory? node with
  | some (parent, _) => tree.setBody node (.directory parent [])
  | none => tree

def remove (tree : FileTree) (place : Place) : FileTree :=
  match place.node with
  | none => tree
  | some node =>
      let removed := (tree.within node tree.nodes.size).foldl emptyDirectory tree
      removed.unlink place.directory place.name

/-! ## Listing -/

/-- The entries of a directory, in the order of the bytes of their names. -/
def sortedEntries (tree : FileTree) (node : NodeId) : List (RawText × NodeId) :=
  match tree.directory? node with
  | some (_, entries) => entries.mergeSort fun first second => !(second.1.bytes < first.1.bytes)
  | none => []

/-- The nodes in a directory with their paths from it, each directory before what is in it, down
to a depth. -/
def listing (tree : FileTree) (node : NodeId) (base : RawText) : Nat → List (RawText × NodeId)
  | 0 => []
  | depth + 1 =>
      (tree.sortedEntries node).flatMap fun entry =>
        let path := base ++ entry.1
        (path, entry.2) :: tree.listing entry.2 (path ++ "/") depth

end FileTree

end JobControl.Machine
