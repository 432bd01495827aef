/-!
# Error numbers

The reasons for which the system refuses a call, each with its symbol, its number and the words
the system has for it.
-/

namespace JobControl

/-- The reason the system gives when it refuses a call. -/
inductive Errno where
  | notPermitted
  | noEntry
  | noProcess
  | interrupted
  | inputOutput
  | argumentsTooLong
  | notExecutable
  | badDescriptor
  | noChild
  | tryAgain
  | noMemory
  | accessDenied
  | exists
  | notDirectory
  | isDirectory
  | invalidArgument
  | tooManyOpenSystem
  | tooManyOpen
  | noSpace
  | brokenPipe
  | nameTooLong
  | tooManyLinks
  deriving DecidableEq, Repr

namespace Errno

def code : Errno → Nat
  | .notPermitted => 1
  | .noEntry => 2
  | .noProcess => 3
  | .interrupted => 4
  | .inputOutput => 5
  | .argumentsTooLong => 7
  | .notExecutable => 8
  | .badDescriptor => 9
  | .noChild => 10
  | .tryAgain => 11
  | .noMemory => 12
  | .accessDenied => 13
  | .exists => 17
  | .notDirectory => 20
  | .isDirectory => 21
  | .invalidArgument => 22
  | .tooManyOpenSystem => 23
  | .tooManyOpen => 24
  | .noSpace => 28
  | .brokenPipe => 32
  | .nameTooLong => 36
  | .tooManyLinks => 40

def symbol : Errno → String
  | .notPermitted => "EPERM"
  | .noEntry => "ENOENT"
  | .noProcess => "ESRCH"
  | .interrupted => "EINTR"
  | .inputOutput => "EIO"
  | .argumentsTooLong => "E2BIG"
  | .notExecutable => "ENOEXEC"
  | .badDescriptor => "EBADF"
  | .noChild => "ECHILD"
  | .tryAgain => "EAGAIN"
  | .noMemory => "ENOMEM"
  | .accessDenied => "EACCES"
  | .exists => "EEXIST"
  | .notDirectory => "ENOTDIR"
  | .isDirectory => "EISDIR"
  | .invalidArgument => "EINVAL"
  | .tooManyOpenSystem => "ENFILE"
  | .tooManyOpen => "EMFILE"
  | .noSpace => "ENOSPC"
  | .brokenPipe => "EPIPE"
  | .nameTooLong => "ENAMETOOLONG"
  | .tooManyLinks => "ELOOP"

def words : Errno → String
  | .notPermitted => "Operation not permitted"
  | .noEntry => "No such file or directory"
  | .noProcess => "No such process"
  | .interrupted => "Interrupted system call"
  | .inputOutput => "Input/output error"
  | .argumentsTooLong => "Argument list too long"
  | .notExecutable => "Exec format error"
  | .badDescriptor => "Bad file descriptor"
  | .noChild => "No child processes"
  | .tryAgain => "Resource temporarily unavailable"
  | .noMemory => "Cannot allocate memory"
  | .accessDenied => "Permission denied"
  | .exists => "File exists"
  | .notDirectory => "Not a directory"
  | .isDirectory => "Is a directory"
  | .invalidArgument => "Invalid argument"
  | .tooManyOpenSystem => "Too many open files in system"
  | .tooManyOpen => "Too many open files"
  | .noSpace => "No space left on device"
  | .brokenPipe => "Broken pipe"
  | .nameTooLong => "File name too long"
  | .tooManyLinks => "Too many levels of symbolic links"

end Errno

/-- Why reading, opening or starting something failed. -/
inductive AccessFault where
  | refused (reason : Errno)
  /-- A name holds the character that ends names, so the system was not asked. -/
  | nulInName
  /-- What was read is not UTF-8. -/
  | notText
  deriving DecidableEq, Repr

/-- The words for a fault; a refusal is told with its number. -/
def AccessFault.message : AccessFault → String
  | .refused reason => s!"{reason.words} (os error {reason.code})"
  | .nulInName => "file name contained an unexpected NUL byte"
  | .notText => "stream did not contain valid UTF-8"

end JobControl
