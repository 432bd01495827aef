import JobControl.Machine.Filter.Pattern
/-!
# Filters

A filter is a program that reads its inputs piece by piece and writes as it goes.  It is told of
the beginning of each input, of each piece that was read and of the end of each input, and says
what it writes; in the end it says with which status it exits, which it may also do before.
-/

namespace JobControl.Machine

def lineFeed : UInt8 := 10

/-- Cuts bytes after each line feed; the last piece lacks one if the bytes do not end with one. -/
def cutAfterLineFeeds : List UInt8 → List (List UInt8)
  | [] => []
  | c :: rest =>
      if c = lineFeed then [c] :: cutAfterLineFeeds rest
      else
        match cutAfterLineFeeds rest with
        | [] => [[c]]
        | line :: lines => (c :: line) :: lines

def bytesOf (bytes : List UInt8) : ByteArray :=
  ByteArray.mk bytes.toArray

/-! ## Counting -/

/-- The numbers of lines, words and bytes. -/
structure Counts where
  lines : Nat := 0
  words : Nat := 0
  bytes : Nat := 0
  inWord : Bool := false
  deriving DecidableEq, Repr

namespace Counts

def isSpace (c : UInt8) : Bool :=
  c = 32 || (9 ≤ c && c ≤ 13)

def addByte (counts : Counts) (c : UInt8) : Counts :=
  { lines := if c = lineFeed then counts.lines + 1 else counts.lines
    words := if !isSpace c && !counts.inWord then counts.words + 1 else counts.words
    bytes := counts.bytes + 1
    inWord := !isSpace c }

def plus (first second : Counts) : Counts :=
  { lines := first.lines + second.lines
    words := first.words + second.words
    bytes := first.bytes + second.bytes }

end Counts

/-- What a count shows. -/
structure CountColumns where
  lines : Bool
  words : Bool
  bytes : Bool
  width : Nat
  deriving DecidableEq, Repr

namespace CountColumns

def place (width number : Nat) : String :=
  let digits := toString number
  String.ofList (List.replicate (width - digits.length) ' ') ++ digits

/-- One row: the columns shown, and a name if there is one. -/
def row (columns : CountColumns) (counts : Counts) (name : Option String) : String :=
  let shown :=
    (if columns.lines then [counts.lines] else []) ++
      (if columns.words then [counts.words] else []) ++
      (if columns.bytes then [counts.bytes] else [])
  " ".intercalate (shown.map (place columns.width) ++ name.toList) ++ "\n"

end CountColumns

/-! ## Sorting -/

/-- How lines are ordered. -/
structure SortOrder where
  reverse : Bool := false
  numeric : Bool := false
  unique : Bool := false
  deriving DecidableEq, Repr

namespace SortOrder

def leadingNumber (line : List UInt8) : Int :=
  let text := line.dropWhile fun c => c = 32 || c = 9
  let negative := text.head? = some 45
  let digits := (if negative then text.drop 1 else text).takeWhile fun c => 48 ≤ c && c ≤ 57
  let value : Nat := digits.foldl (fun n c => 10 * n + (c.toNat - 48)) 0
  if negative then -(value : Int) else (value : Int)

/-- Whether the bytes of one line come strictly before those of another. -/
def bytesBefore : List UInt8 → List UInt8 → Bool
  | _, [] => false
  | [], _ :: _ => true
  | a :: first, b :: second =>
      a < b || (a = b && bytesBefore first second)

def admits (order : SortOrder) (first second : List UInt8) : Bool :=
  let swapped := if order.reverse then (second, first) else (first, second)
  if order.numeric then
    let a := leadingNumber swapped.1
    let b := leadingNumber swapped.2
    a < b || (a = b && (order.unique || !bytesBefore swapped.2 swapped.1))
  else
    !bytesBefore swapped.2 swapped.1

def same (order : SortOrder) (first second : List UInt8) : Bool :=
  if order.numeric then leadingNumber first = leadingNumber second else first = second

/-- Keeps the first of each run of lines that count as the same. -/
def dropRepeated (order : SortOrder) : List (List UInt8) → List (List UInt8)
  | first :: second :: rest =>
      if order.same first second then dropRepeated order (first :: rest)
      else first :: dropRepeated order (second :: rest)
  | lines => lines
termination_by lines => lines.length

def sort (order : SortOrder) (lines : List (List UInt8)) : List (List UInt8) :=
  let sorted := lines.mergeSort order.admits
  if order.unique then order.dropRepeated sorted else sorted

end SortOrder

/-! ## Exchanging bytes -/

/-- What happens to the bytes of a text. -/
structure ByteExchange where
  replace : List (UInt8 × UInt8) := []
  delete : List UInt8 := []
  squeeze : List UInt8 := []
  last : Option UInt8 := none
  deriving DecidableEq, Repr

/-- Exchanges one byte and adds it to what is written, whose last byte comes first. -/
def ByteExchange.addByte (state : ByteExchange × List UInt8) (c : UInt8) :
    ByteExchange × List UInt8 :=
  let (table, written) := state
  if table.delete.contains c then (table, written)
  else
    let c := ((table.replace.find? fun pair => pair.1 = c).map Prod.snd).getD c
    if table.squeeze.contains c && table.last = some c then (table, written)
    else ({ table with last := some c }, c :: written)

/-! ## Filters -/

/-- How lines are searched. -/
structure Search where
  pattern : Pattern
  inverted : Bool := false
  quiet : Bool := false
  count : Bool := false
  named : Bool := false
  deriving DecidableEq, Repr

/-- How far a search has come. -/
structure SearchProgress where
  name : String := ""
  partialLine : List UInt8 := []
  selected : Nat := 0
  anySelected : Bool := false
  deriving DecidableEq, Repr

/-- A program that reads inputs and writes as it goes. -/
inductive Filter where
  | copy
  /-- The first lines; `left` of this input are still to come. -/
  | firstLines (limit left : Nat) (headers : Bool) (inputs : Nat)
  | firstBytes (limit left : Nat) (headers : Bool) (inputs : Nat)
  /-- Counting; a row for all inputs together follows theirs if `withTotal`. -/
  | count (columns : CountColumns) (name : Option String) (current total : Counts)
      (withTotal : Bool)
  | exchange (table : ByteExchange)
  | sort (order : SortOrder) (pieces : ByteArray)
  | search (search : Search) (progress : SearchProgress)

/-- What a filter does: it goes on as another filter, writes, and may exit or leave the rest of
its input unread. -/
structure Reaction where
  filter : Filter
  output : ByteArray := ByteArray.empty
  leaves : Bool := false
  exit : Option Nat := none

namespace Filter

def header (headers : Bool) (inputs : Nat) (name : Option String) : String :=
  let shown := name.getD "standard input"
  if headers then (if inputs = 0 then "" else "\n") ++ s!"==> {shown} <==\n" else ""

def beginInput (filter : Filter) (name : Option String) : Reaction :=
  match filter with
  | .firstLines limit _ headers inputs =>
      { filter := .firstLines limit limit headers (inputs + 1)
        output := (header headers inputs name).toUTF8
        leaves := limit = 0 }
  | .firstBytes limit _ headers inputs =>
      { filter := .firstBytes limit limit headers (inputs + 1)
        output := (header headers inputs name).toUTF8
        leaves := limit = 0 }
  | .count columns _ _ total withTotal =>
      { filter := .count columns name {} total withTotal }
  | .search wanted progress =>
      { filter := .search wanted { progress with name := name.getD "(standard input)" } }
  | other => { filter := other }

/-- Looks at the complete lines among some bytes.  The result is what is written, the bytes of an
incomplete last line, and the number of lines selected. -/
def searchLines (wanted : Search) (name : String) :
    List (List UInt8) → List UInt8 × List UInt8 × Nat
  | [] => ([], [], 0)
  | line :: rest =>
      if line.getLast? = some lineFeed then
        let (output, left, selected) := searchLines wanted name rest
        if wanted.pattern.isFoundIn line.dropLast = wanted.inverted then (output, left, selected)
        else
          let shown :=
            if wanted.quiet || wanted.count then []
            else (if wanted.named then (name ++ ":").toUTF8.toList else []) ++ line
          (shown ++ output, left, selected + 1)
      else ([], line, 0)

def feed (filter : Filter) (piece : ByteArray) : Reaction :=
  match filter with
  | .copy => { filter := .copy, output := piece }
  | .firstLines limit left headers inputs =>
      let taken := (cutAfterLineFeeds piece.toList).take left
      let complete := taken.countP fun line => line.getLast? = some lineFeed
      let left := left - complete
      { filter := .firstLines limit left headers inputs
        output := bytesOf taken.flatten
        leaves := left = 0 }
  | .firstBytes limit left headers inputs =>
      let taken := piece.toList.take left
      let left := left - taken.length
      { filter := .firstBytes limit left headers inputs
        output := bytesOf taken
        leaves := left = 0 }
  | .count columns name current total withTotal =>
      { filter := .count columns name (piece.foldl Counts.addByte current) total withTotal }
  | .exchange table =>
      let (table, written) := piece.foldl ByteExchange.addByte (table, [])
      { filter := .exchange table, output := bytesOf written.reverse }
  | .sort order pieces => { filter := .sort order (pieces ++ piece) }
  | .search wanted progress =>
      let (output, left, found) :=
        searchLines wanted progress.name
          (cutAfterLineFeeds (progress.partialLine ++ piece.toList))
      { filter := .search wanted
          { progress with
            partialLine := left
            selected := progress.selected + found
            anySelected := progress.anySelected || found ≠ 0 }
        output := bytesOf output
        exit := if wanted.quiet && found ≠ 0 then some 0 else none }

def endInput (filter : Filter) : Reaction :=
  match filter with
  | .count columns name current total withTotal =>
      { filter := .count columns name current (total.plus current) withTotal
        output := (columns.row current name).toUTF8 }
  | .search wanted progress =>
      let (output, _, found) :=
        if progress.partialLine.isEmpty then ([], [], 0)
        else searchLines wanted progress.name [progress.partialLine ++ [lineFeed]]
      let selected := progress.selected + found
      let name := if wanted.named then progress.name ++ ":" else ""
      let total :=
        if wanted.count && !wanted.quiet then s!"{name}{selected}\n".toUTF8
        else ByteArray.empty
      { filter := .search wanted
          { name := progress.name, anySelected := progress.anySelected || selected ≠ 0 }
        output := bytesOf output ++ total }
  | .sort order pieces =>
      if pieces.toList.getLast?.all (· = lineFeed) then { filter := .sort order pieces }
      else { filter := .sort order (pieces.push lineFeed) }
  | other => { filter := other }

/-- What is written when all inputs have been read, and the status. -/
def finish (filter : Filter) : ByteArray × Nat :=
  match filter with
  | .count columns _ _ total withTotal =>
      (if withTotal then (columns.row total (some "total")).toUTF8 else ByteArray.empty, 0)
  | .sort order pieces =>
      let lines := (cutAfterLineFeeds pieces.toList).map List.dropLast
      (bytesOf ((order.sort lines).flatMap fun line => line ++ [lineFeed]), 0)
  | .search _ progress => (ByteArray.empty, if progress.anySelected then 0 else 1)
  | _ => (ByteArray.empty, 0)

end Filter

end JobControl.Machine
