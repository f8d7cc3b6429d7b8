import LockBench.Journal
import LockBench.Session.Harness

/-!
# Timing a session's groups

The operations are taken in order.  One that no suite supports is skipped; for
any other the commands of the suites are timed as one group.  A timing program
that fails is reported and does not end the session; one that cannot run at
all does.
-/

namespace LockBench
namespace Session

/-- How the failure of a group is reported. -/
def failureText (outcome : Outcome) : String :=
  "hyperfine exited with " ++
    (match outcome.exitCode with
      | none => "a signal"
      | some code => "status " ++ toString code) ++
    " for " ++ outcome.operation.name

/-- Report an outcome that is a failure. -/
def reportOutcome
    (journal : Journal)
    (operation : Operation)
    (outcome : Outcome) : Action Unit :=
  if outcome.succeeded then return ()
  else journal.note (.warn (failureText { outcome with operation }))

/-- Time the groups of some operations, one after another. -/
def timeGroups
    [Monad m]
    [MonadLiftT Action m]
    (journal : Journal)
    (time : Group -> m (Except HarnessFailure Outcome))
    (suites : List Suite) :
    List Operation -> m (Except HarnessFailure Summary)
  | [] => return .ok {}
  | operation :: rest => do
    match Group.collect? suites operation with
    | none =>
      match ← timeGroups journal time suites rest with
      | .error failure => return .error failure
      | .ok summary =>
        return .ok { summary with skipped := operation :: summary.skipped }
    | some group =>
      liftM (journal.note (.banner operation.name))
      match ← time group with
      | .error failure => return .error failure
      | .ok outcome =>
        liftM (reportOutcome journal operation outcome)
        match ← timeGroups journal time suites rest with
        | .error failure => return .error failure
        | .ok summary =>
          return .ok { summary with outcomes := outcome :: summary.outcomes }

end Session

namespace Harness

/-- Make the directory of exported timings, if there is one. -/
def makeExportDir
    (harness : Harness) : Action (Except HarnessFailure Unit) := do
  match harness.options.exportDir with
  | none => return .ok ()
  | some dir =>
    match ← Action.makeDirs dir with
    | .error cause => return .error (.resultsDir dir cause)
    | .ok () => return .ok ()

/-- Time a group with the timing program. -/
def time
    (harness : Harness)
    (journal : Journal)
    (group : Group) : Action (Except HarnessFailure Outcome) := do
  match ← harness.makeExportDir with
  | .error failure => return .error failure
  | .ok () =>
    journal.note (.step ("hyperfine " ++ group.operation.name ++ " with " ++
      toString group.commands.length ++ " command(s)"))
    match ← Action.attend (harness.launch group) with
    | .error cause => return .error (.start harness.binary cause)
    | .ok exit =>
      return .ok
        { operation := group.operation
          commands := group.commands.length
          exitCode := exit.code?
          exportPath := harness.exportPath? group.operation }

end Harness
end LockBench
