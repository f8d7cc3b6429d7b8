import LockBench.Host.OsError
import LockBench.Suite

/-!
# Comparison groups

All commands for one operation are timed together, by one run of a timing
program.  Its outcome is the exit code of that run.
-/

namespace LockBench

/-- The commands that are timed together for an operation. -/
structure Group where
  /-- The operation. -/
  operation : Operation
  /-- The commands of the suites that support it, in order of the suites. -/
  commands : List Command
  deriving DecidableEq, Repr

namespace Group

/-- The commands of the suites that support an operation, if any does. -/
def collect?
    (suites : List Suite)
    (operation : Operation) : Option Group :=
  match suites.filterMap (·.command? operation) with
  | [] => none
  | commands => some ⟨operation, commands⟩

/-- Whether some command of the group has a preparation. -/
def anyPrepare (group : Group) : Bool :=
  group.commands.any (·.prepare.isSome)

end Group

/-- What came of one comparison group. -/
structure Outcome where
  /-- The operation of the group. -/
  operation : Operation
  /-- The number of its commands. -/
  commands : Nat
  /-- The exit code of the timing program, unless a signal ended it. -/
  exitCode : Option Int
  /-- Where the timings were to be written, if anywhere. -/
  exportPath : Option Path
  deriving DecidableEq, Repr

/-- Whether the timing program reported success. -/
def Outcome.succeeded (outcome : Outcome) : Bool :=
  outcome.exitCode = some 0

/-- What came of a whole session. -/
structure Summary where
  /-- The outcomes of the groups, in order. -/
  outcomes : List Outcome := []
  /-- The operations that no suite supports, in order. -/
  skipped : List Operation := []
  deriving DecidableEq, Repr

/-- The outcomes that report a failure. -/
def Summary.failed (summary : Summary) : List Outcome :=
  summary.outcomes.filter fun outcome => !outcome.succeeded

/-- Why a group could not be timed at all. -/
inductive HarnessFailure
  /-- The timing program could not be started. -/
  | start (binary : Path) (cause : OsError)
  /-- The directory for the timings could not be made. -/
  | resultsDir (path : Path) (cause : OsError)
  deriving DecidableEq, Repr

/-- The text under which a failure is reported. -/
def HarnessFailure.message : HarnessFailure -> String
  | .start binary cause =>
    "Failed to run " ++ binary.text ++ ": " ++ cause.message
  | .resultsDir path cause =>
    "Failed to create results directory " ++ path.text ++ ": " ++
      cause.message

end LockBench
