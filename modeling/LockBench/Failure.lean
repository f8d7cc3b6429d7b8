import LockBench.Config.Store
import LockBench.Discovery
import LockBench.Fixture
import LockBench.Report
import LockBench.Session.Group
import LockBench.Session.Seeding

/-!
# Failures

Everything that can end a task before it is done, and the text under which it
is reported.
-/

namespace LockBench

/-- Why a task ended before it was done. -/
inductive Failure
  | io (cause : OsError)
  | config (failure : Config.Failure)
  | discovery (failure : Discovery.Failure)
  | manifest (failure : ManifestFailure)
  | suite (failure : SuiteFailure)
  | harness (failure : HarnessFailure)
  | report (failure : Report.Failure)
  | unknownFixture (name : String) (available : List String)
  | noTools
  | sessionDir (path : Path) (cause : OsError)
  | lock (failed : FailedLock)
  deriving DecidableEq, Repr

namespace Failure

/-- The text under which a failure is reported. -/
def message : Failure -> String
  | .io cause => "IO error: " ++ cause.message
  | .config failure => failure.message
  | .discovery failure => failure.message
  | .manifest failure => failure.message
  | .suite failure => failure.message
  | .harness failure => failure.message
  | .report failure => failure.message
  | .unknownFixture name available =>
    "Unknown fixture '" ++ name ++ "'. Available fixtures: " ++
      ", ".intercalate available
  | .noTools => "No tools available to benchmark"
  | .sessionDir path cause =>
    "Failed to prepare directory " ++ path.text ++ ": " ++ cause.message
  | .lock failed => failed.message

/-- The failure of a task in which a suite could not be seeded. -/
def ofSeed : SeedFailure -> Failure
  | .directory path cause => .sessionDir path cause
  | .suite failure => .suite failure
  | .start cause => .io cause
  | .lock failed => .lock failed

/-- The failure of a task whose fixture could not be put on disk. -/
def ofFixture : Fixture.Failure -> Failure
  | .directory path cause => .sessionDir path cause
  | .write cause => .io cause

/-- What a process wrote to one stream, unless it wrote nothing. -/
def streamLine
    (name text : String) : String :=
  if text.isEmpty then "" else "  " ++ name ++ ": " ++ text ++ "\n"

/-- What there is to say about a failure beside its message: what the failed
lock of a suite wrote. -/
def details : Failure -> String
  | .lock failed =>
    streamLine "stderr" failed.stderr ++ streamLine "stdout" failed.stdout
  | _ => ""

/-- Show the user what there is to say about a failure beside its message. -/
def showDetails (failure : Failure) : Action Unit :=
  if failure.details.isEmpty then return ()
  else Action.printError failure.details

end Failure

/-- A part of a task that may end it. -/
abbrev Attempt := ExceptT Failure Action

namespace Attempt

/-- Carry out an action that may fail, as part of a task. -/
def lift
    (cause : ε -> Failure)
    (action : Action (Except ε α)) : Attempt α :=
  ExceptT.mk do
    match ← action with
    | .error failure => return .error (cause failure)
    | .ok result => return .ok result

end Attempt
end LockBench
