import JobControl.Calendar
import JobControl.Job
import JobControl.Settings
/-!
# The registry of background jobs

An entry is a background job together with those of its processes that have not been reaped.  It
is known by the last of them, so an entry changes its name when that process is reaped before
the others.  The status of a job is that of its last step; an entry keeps it from the moment it is
known.  A registry lists its entries in the order in which they were registered, up to a capacity.
-/

namespace JobControl

/-- The number of a process. -/
structure Pid where
  number : Int
  deriving DecidableEq, Repr

/-- A background job and its processes. -/
structure Entry where
  job : Job
  /-- The name of the entry: the last process that has not been reaped. -/
  pid : Pid
  /-- The processes that have not been reaped, in the order of their steps. -/
  processes : List Pid
  /-- The process of the last step, unless that step never started. -/
  lastStep : Option Pid
  /-- The status of the last step, once it is known. -/
  lastStatus : Option Int := none
  started : Moment
  deriving DecidableEq, Repr

namespace Entry

/-- The entry for a job whose started steps are these processes, the last of them being the
process of its last step. -/
def ofProcesses (job : Job) (processes : List Pid) (started : Moment) : Except Breach Entry :=
  match processes.getLast? with
  | none => .error .entryWithoutProcesses
  | some last =>
      .ok { job := job
            pid := last
            processes := processes
            lastStep := some last
            started := started }

/-- The same entry for a job whose last step never started and counts as ended with a status. -/
def withFailedLastStep (entry : Entry) (status : Int) : Entry :=
  { entry with lastStep := none, lastStatus := some status }

/-- The entry after one of its processes was reaped with a status. -/
def afterReaping (entry : Entry) (pid : Pid) (status : Int) : Entry :=
  let left := entry.processes.filter fun process => process ≠ pid
  { entry with
    processes := left
    lastStatus := if entry.lastStep = some pid then some status else entry.lastStatus
    pid := left.getLastD entry.pid }

/-- The line that lists the entry: its name, when it was registered, and the job's line. -/
def describe (entry : Entry) : String :=
  s!"{entry.pid.number}\t{entry.started.describe}\t{entry.job.input}"

def inspectStatus : Option Int → String
  | none => "None"
  | some status => s!"Some({status})"

def inspect (entry : Entry) : String :=
  let processes := ", ".intercalate (entry.processes.map fun pid => s!"Pid({pid.number})")
  s!"pid: {entry.pid.number}\tprocesses: [{processes}]\t" ++
    s!"last status: {inspectStatus entry.lastStatus}\tinput: {entry.job.input}"

end Entry

/-- The background jobs of a session. -/
structure Registry where
  entries : List Entry := []
  /-- The largest number of entries; without it there is no limit. -/
  capacity : Option Nat := none
  deriving DecidableEq, Repr

namespace Registry

def ofCapacity (capacity : Option Nat) : Registry :=
  { capacity := capacity }

def size (registry : Registry) : Nat :=
  registry.entries.length

def isEmpty (registry : Registry) : Bool :=
  registry.entries.isEmpty

def isFull (registry : Registry) : Bool :=
  match registry.capacity with
  | none => false
  | some limit => limit ≤ registry.size

def lookup? (registry : Registry) (pid : Pid) : Option Entry :=
  registry.entries.find? fun entry => entry.pid = pid

/-- Registers an entry behind the others, unless the registry is full or has an entry of the same
name. -/
def insert (registry : Registry) (entry : Entry) : Except Failure Registry :=
  if registry.isFull then
    .error (.tooManyBackgroundJobs (registry.capacity.getD 0))
  else
    match registry.lookup? entry.pid with
    | some _ => .error (.duplicateJob entry.pid.number)
    | none => .ok { registry with entries := registry.entries ++ [entry] }

/-- The first entry of a list that satisfies a condition, and the list without it. -/
def takeFirst? (wanted : Entry → Bool) : List Entry → Option (Entry × List Entry)
  | [] => none
  | entry :: rest =>
      if wanted entry then some (entry, rest)
      else (takeFirst? wanted rest).map fun (found, left) => (found, entry :: left)

def remove (registry : Registry) (pid : Pid) : Except Failure (Entry × Registry) :=
  match takeFirst? (fun entry => entry.pid = pid) registry.entries with
  | none => .error (.jobNotFound (toString pid.number))
  | some (entry, left) => .ok (entry, { registry with entries := left })

def removeOldest (registry : Registry) : Except Failure (Entry × Registry) :=
  match registry.entries with
  | [] => .error .noBackgroundJobs
  | oldest :: left => .ok (oldest, { registry with entries := left })

/-- Notes in a list of entries that a process was reaped.  The first entry that has the process
loses it; when that was the last of its processes, the entry is taken out and returned. -/
def reapIn (pid : Pid) (status : Int) : List Entry → Option Entry × List Entry
  | [] => (none, [])
  | entry :: rest =>
      if pid ∈ entry.processes then
        let after := entry.afterReaping pid status
        if after.processes.isEmpty then (some after, rest) else (none, after :: rest)
      else
        let (completed, left) := reapIn pid status rest
        (completed, entry :: left)

/-- Notes that a process was reaped with a status.  The entry that had it is returned once all of
its processes have been reaped, and is then no longer registered. -/
def markReaped (registry : Registry) (pid : Pid) (status : Int) : Option Entry × Registry :=
  let (completed, left) := reapIn pid status registry.entries
  (completed, { registry with entries := left })

def drain (registry : Registry) : List Entry × Registry :=
  (registry.entries, { registry with entries := [] })

/-- The registry as it is shown to a developer: one line for itself, one for each entry. -/
def inspect (registry : Registry) : String :=
  registry.entries.foldl (fun text entry => text ++ entry.inspect ++ "\n")
    s!"{registry.size} jobs\tcapacity: {Settings.describeLimit registry.capacity}\n"

end Registry

end JobControl
