import JobControl.System.Errno
import JobControl.Usage
/-!
# Failures and breaches

A failure is a reason why a line, or the whole session, could not do what it was asked to do; the
user is told in one line of words.  Only a failed wait is fatal: every other failure ends the line
at hand, and the session goes on.  A breach is a promise of the library broken by its caller, or
an output that could not be written where nothing else can be done.
-/

namespace JobControl

/-- Why a job or a session failed. -/
inductive Failure where
  | other (words : String)
  | access (fault : AccessFault)
  | pipe (reason : Errno)
  | reading (fault : AccessFault)
  /-- The arguments of a builtin do not follow its usage. -/
  | usage (fault : UsageFault)
  | badLine (line : String)
  | builtin (words : String) (status : Int)
  | commandNotFound (command : String)
  | commandNotExecutable (command : String)
  | fileNotFound (path : String)
  | notWritable (path : String)
  | redirectionConflict
  | tooManyBackgroundJobs (limit : Nat)
  | duplicateJob (pid : Int)
  | jobNotFound (job : String)
  | noBackgroundJobs
  | directoryChange (directory : String)
  | invalidLimit (text : String)
  | waitFailed (pid : Int)
  deriving DecidableEq, Repr

namespace Failure

def message : Failure → String
  | .other words => words
  | .access fault => fault.message
  | .pipe reason => s!"{reason.symbol}: {reason.words}"
  | .reading fault => fault.message
  | .usage fault => fault.message
  | .badLine line => s!"syntax error near: '{line}'"
  | .builtin words _ => words
  | .commandNotFound command => s!"{command}: command not found"
  | .commandNotExecutable command => s!"{command}: cannot execute"
  | .fileNotFound path => s!"{path}: no such file"
  | .notWritable path => s!"{path}: cannot open for writing"
  | .redirectionConflict => "invalid redirection: input, output and error files must differ"
  | .tooManyBackgroundJobs limit => s!"background job limit reached ({limit})"
  | .duplicateJob pid => s!"{pid}: already a background job"
  | .jobNotFound job => s!"{job}: no such job"
  | .noBackgroundJobs => "no background jobs"
  | .directoryChange directory => s!"cd: {directory}: no such directory"
  | .invalidLimit text => s!"invalid command line argument value: '{text}'"
  | .waitFailed pid => s!"wait error on process {pid}"

/-- What kind of failure it is, in a few words. -/
def description : Failure → String
  | .other words => words
  | .access fault => fault.message
  | .pipe reason => reason.words
  | .reading fault => fault.message
  | .usage fault => fault.message
  | .badLine _ => "syntax error"
  | .builtin _ _ => "builtin command failed"
  | .commandNotFound _ => "command not found"
  | .commandNotExecutable _ => "command not executable"
  | .fileNotFound _ => "file not found"
  | .notWritable _ => "cannot open redirection target"
  | .redirectionConflict => "redirection conflict"
  | .tooManyBackgroundJobs _ => "too many background jobs"
  | .duplicateJob _ => "duplicate background job"
  | .jobNotFound _ => "no such job"
  | .noBackgroundJobs => "no background jobs"
  | .directoryChange _ => "cannot change directory"
  | .invalidLimit _ => "invalid command line argument"
  | .waitFailed _ => "wait failed"

/-- Whether the session has to end: after a failed wait its processes are no longer known. -/
def isFatal : Failure → Bool
  | .waitFailed _ => true
  | _ => false

end Failure

/-- Where the session writes. -/
inductive Outlet where
  | output
  | errors
  | provided
  deriving DecidableEq, Repr

def Outlet.name : Outlet → String
  | .output => "stdout"
  | .errors => "stderr"
  | .provided => "output"

/-- A broken promise. -/
inductive Breach where
  | jobWithoutSteps
  | entryWithoutProcesses
  | noticeLost (outlet : Outlet) (reason : Errno)
  deriving DecidableEq, Repr

def Breach.message : Breach → String
  | .jobWithoutSteps => "a job needs at least one step"
  | .entryWithoutProcesses => "background job without processes"
  | .noticeLost outlet reason =>
      s!"failed printing to {outlet.name}: {(AccessFault.refused reason).message}"

/-- Why an action did not come to its result. -/
inductive Stop where
  | failure (failure : Failure)
  | breach (breach : Breach)
  deriving DecidableEq, Repr

end JobControl
