import JobControl.Text.ClusterRanges
/-!
# Clusters: what a reader takes for one character

An erased character is a cluster: a letter together with the marks on it, a syllable of Hangul, a
flag, a joined pictograph.  A text is cut between two characters unless one of the rules of the
Unicode standard for extended grapheme clusters keeps them together.  Whether two characters stay
together depends on their classes and, for flags and pictographs, on what precedes the first.
-/

namespace JobControl.Text

/-- What a character is in the rules for clusters. -/
inductive ClusterClass where
  | carriageReturn
  | lineFeed
  | control
  | extending
  | joiner
  | spacingMark
  | prepended
  | hangulLeading
  | hangulVowel
  | hangulTrailing
  | hangulOpen
  | hangulClosed
  | regional
  | pictographic
  | plain
  deriving DecidableEq

namespace ClusterClass

/-- Whether a code point lies in one of the ranges. -/
def inRanges (ranges : List (Nat × Nat)) (n : Nat) : Bool :=
  ranges.any fun range => range.1 ≤ n && n ≤ range.2

/-- The class of a character; the Hangul syllables follow a regular order and need no table. -/
def ofChar (c : Char) : ClusterClass :=
  let n := c.toNat
  if c = '\r' then .carriageReturn
  else if c = '\n' then .lineFeed
  else if 0x20 ≤ n ∧ n < 0x7F then .plain
  else if n = 0x200D then .joiner
  else if inRanges ClusterRanges.control n then .control
  else if inRanges ClusterRanges.extending n then .extending
  else if inRanges ClusterRanges.spacingMark n then .spacingMark
  else if inRanges ClusterRanges.prepended n then .prepended
  else if inRanges [(0x1100, 0x115F), (0xA960, 0xA97C)] n then .hangulLeading
  else if inRanges [(0x1160, 0x11A7), (0xD7B0, 0xD7C6)] n then .hangulVowel
  else if inRanges [(0x11A8, 0x11FF), (0xD7CB, 0xD7FB)] n then .hangulTrailing
  else if inRanges [(0xAC00, 0xD7A3)] n then
    if (n - 0xAC00) % 28 = 0 then .hangulOpen else .hangulClosed
  else if inRanges [(0x1F1E6, 0x1F1FF)] n then .regional
  else if inRanges ClusterRanges.pictographic n then .pictographic
  else .plain

/-- Characters that are a cluster of their own, but for a carriage return and its line feed. -/
def standsAlone : ClusterClass → Bool
  | .carriageReturn => true
  | .lineFeed => true
  | .control => true
  | _ => false

end ClusterClass

/-- What the rules have to remember of the cluster read so far. -/
structure ClusterContext where
  last : ClusterClass
  /-- An odd number of regional indicators stands at the end. -/
  halfFlag : Bool
  /-- A pictograph stands at the end, with marks and at most one joiner after it. -/
  pictograph : Bool

namespace ClusterContext

def start (c : ClusterClass) : ClusterContext :=
  { last := c, halfFlag := c = .regional, pictograph := c = .pictographic }

def extend (context : ClusterContext) (next : ClusterClass) : ClusterContext :=
  { last := next
    halfFlag := next = .regional && !context.halfFlag
    pictograph :=
      next = .pictographic ||
        (context.pictograph && context.last ≠ .joiner &&
          (next = .extending || next = .joiner)) }

def joins (context : ClusterContext) (next : ClusterClass) : Bool :=
  match context.last, next with
  | .carriageReturn, .lineFeed => true
  | last, next =>
      if last.standsAlone || next.standsAlone then false
      else
        match last, next with
        | _, .extending => true
        | _, .joiner => true
        | _, .spacingMark => true
        | .prepended, _ => true
        | .hangulLeading, .hangulLeading => true
        | .hangulLeading, .hangulVowel => true
        | .hangulLeading, .hangulOpen => true
        | .hangulLeading, .hangulClosed => true
        | .hangulOpen, .hangulVowel => true
        | .hangulOpen, .hangulTrailing => true
        | .hangulVowel, .hangulVowel => true
        | .hangulVowel, .hangulTrailing => true
        | .hangulClosed, .hangulTrailing => true
        | .hangulTrailing, .hangulTrailing => true
        | .joiner, .pictographic => context.pictograph
        | .regional, .regional => context.halfFlag
        | _, _ => false

end ClusterContext

/-- Cuts the rest of a text, given the cluster read so far with its last character first. -/
def clustersFrom (context : ClusterContext) (cluster : List Char) :
    List Char → List (List Char)
  | [] => [cluster.reverse]
  | c :: rest =>
      let next := ClusterClass.ofChar c
      if context.joins next then
        clustersFrom (context.extend next) (c :: cluster) rest
      else
        cluster.reverse :: clustersFrom (.start next) [c] rest

def clusters : List Char → List (List Char)
  | [] => []
  | c :: rest => clustersFrom (.start (.ofChar c)) [c] rest

theorem flatten_clustersFrom
    (context : ClusterContext) (cluster rest : List Char) :
    (clustersFrom context cluster rest).flatten = cluster.reverse ++ rest := by
  induction rest generalizing context cluster with
  | nil => simp [clustersFrom]
  | cons c rest inductionHypothesis =>
      unfold clustersFrom
      dsimp only
      split <;> simp [inductionHypothesis]

/-- Cutting a text into clusters loses nothing. -/
theorem flatten_clusters (text : List Char) :
    (clusters text).flatten = text := by
  cases text with
  | nil => rfl
  | cons c rest => simp [clusters, flatten_clustersFrom]

end JobControl.Text
