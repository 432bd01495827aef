import JobControl.Main
import JobControl.Machine.Outside
import JobControl.Proofs.World.Activity
import JobControl.Proofs.Kernel
import JobControl.Proofs.Account
import JobControl.Proofs.Calls
import JobControl.Proofs.Custody
import JobControl.Proofs.Custody.Registered
import JobControl.Proofs.Waiting
import JobControl.Proofs.Reaping
import JobControl.Proofs.Starting
import JobControl.Proofs.Pipeline
import JobControl.Proofs.Pipeline.Construction
import JobControl.Proofs.Custody.Starting
import JobControl.Proofs.Custody.Registering
import JobControl.Proofs.Custody.Background
import JobControl.Proofs.Custody.Line
import JobControl.Proofs.Custody.Operations
import JobControl.Proofs.Shell
import JobControl.Proofs.PidSafety
import JobControl.Proofs.NoLostReap
import JobControl.Proofs.ForegroundStatus
import JobControl.Proofs.Grammar.Tokens
import JobControl.Proofs.Grammar
import JobControl.Proofs.Grammar.RoundTrip
import JobControl.Proofs.FailedJobs.Cleaning
import JobControl.Proofs.FailedJobs.Builtins
import JobControl.Proofs.FailedJobs
import JobControl.Proofs.BackgroundWaits
import JobControl.Proofs.Registry
import JobControl.Proofs.Registry.OrderedMap
import JobControl.Proofs.Registry.Batch
import JobControl.Proofs.Records
import JobControl.Proofs.Ledger.Carrying
import JobControl.Proofs.Ledger.Reaping
import JobControl.Proofs.Ledger.Taking
import JobControl.Proofs.Ledger.Deeds
import JobControl.Proofs.Ledger
import JobControl.Proofs.Sessions
import JobControl.Proofs.Unreaped
import JobControl.Proofs.Unreaped.Starting
import JobControl.Proofs.Capacity
import JobControl.Proofs.OrderlyEnd.Tracking
import JobControl.Proofs.OrderlyEnd
import JobControl.Proofs.World.Runs
import JobControl.Proofs.Promises
import JobControl.Proofs.Unguarded
import JobControl.Proofs.Course
import JobControl.Proofs.InputLines
import JobControl.Proofs.Course.Input
import JobControl.Proofs.SameLines
import JobControl.Proofs.InputEnds
import JobControl.Proofs.Grammar.Layout
import JobControl.Proofs.RefusedLines
import JobControl.Proofs.Endings
import JobControl.Proofs.FileTree
import JobControl.Proofs.OpenFiles
import JobControl.Proofs.Redirecting.Openings
import JobControl.Proofs.Redirecting
import JobControl.Proofs.Numerals
import JobControl.Proofs.Registry.Tenure
import JobControl.Proofs.JobRuns
import JobControl.Proofs.Directories
import JobControl.Proofs.LineChanges
import JobControl.Proofs.Demands
