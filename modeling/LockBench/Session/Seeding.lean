import LockBench.Journal
import LockBench.Manifest.Store
import LockBench.Suite
import LockBench.Text.Utf8

/-!
# Seeding a suite

Before anything is timed, every suite gets its directories, its manifest, and
a first lock.  The first lock gives the operations that keep the lockfile one
to keep.
-/

namespace LockBench

/-- Why a suite could not be built or given its manifest. -/
inductive SuiteFailure
  | unknownOperation (text : String)
  | unknownTool (text : String)
  | emptyInvocation (name : String)
  | copyManifest (source target : Path) (cause : OsError)
  | manifest (failure : ManifestFailure)
  deriving DecidableEq, Repr

/-- The text under which a failure is reported. -/
def SuiteFailure.message : SuiteFailure -> String
  | .unknownOperation text =>
    "Unknown benchmark '" ++ text ++ "'. Expected one of: " ++ Operation.names
  | .unknownTool text =>
    "Unknown tool '" ++ text ++ "'. Expected one of: " ++
      ", ".intercalate (Tool.all.map Tool.name)
  | .emptyInvocation name =>
    "Command '" ++ name ++ "' has an empty argument vector"
  | .copyManifest source target cause =>
    "Failed to copy manifest " ++ source.text ++ " to " ++ target.text ++
      ": " ++ cause.message
  | .manifest failure => "Manifest error: " ++ failure.message

/-- The initial lock of a suite that did not succeed. -/
structure FailedLock where
  /-- The tool. -/
  tool : Tool
  /-- The label of the suite. -/
  label : String
  /-- The exit code, unless a signal ended the process. -/
  code : Option Int
  /-- What the process wrote to its standard output, trimmed. -/
  stdout : String
  /-- What the process wrote to its standard error, trimmed. -/
  stderr : String
  deriving DecidableEq, Repr

/-- The text under which a failed lock is reported. -/
def FailedLock.message (failed : FailedLock) : String :=
  "Initial lock for " ++ failed.tool.name ++ " (" ++ failed.label ++
    ") failed (exit " ++ (failed.code.map toString).getD "signal" ++ ")"

/-- Why a suite could not be seeded. -/
inductive SeedFailure
  | directory (path : Path) (cause : OsError)
  | suite (failure : SuiteFailure)
  /-- The initial lock could not be started. -/
  | start (cause : OsError)
  | lock (failed : FailedLock)
  deriving DecidableEq, Repr

namespace Suite

/-- Put the tool's manifest into the working directory, and tell where. -/
def seedManifest
    (suite : Suite)
    (source : Path) : Action (Except SuiteFailure Path) := do
  match suite.tool with
  | .uv =>
    match ← Project.writeInto suite.project source
        suite.context.workingDir with
    | .error failure => return .error (.manifest failure)
    | .ok target => return .ok target
  | _ =>
    let target := suite.context.workingDir.join manifestName
    match ← Action.copy source target with
    | .error cause => return .error (.copyManifest source target cause)
    | .ok () => return .ok target

/-- Note the end of the initial lock, and judge it. -/
def judgeLock
    (suite : Suite)
    (journal : Journal)
    (captured : Captured) : ExceptT SeedFailure Action Unit := do
  let stdout := Text.decodeLossy captured.stdout
  let stderr := Text.decodeLossy captured.stderr
  journal.note (.captured suite.seedCommand.name captured.exit.code?
    stdout stderr)
  if captured.exit.succeeded then
    journal.note (.success ("Set up " ++ suite.displayName))
  else
    journal.note (.failure ("Setting up " ++ suite.displayName ++ " failed"))
    throw (.lock
      { tool := suite.tool
        label := suite.label
        code := captured.exit.code?
        stdout := Text.trim stdout
        stderr := Text.trim stderr })

/-- Run the initial lock. -/
def initialLock
    (suite : Suite)
    (journal : Journal) : ExceptT SeedFailure Action Unit := do
  journal.note (.progress ("Setting up " ++ suite.displayName ++ "..."))
  match suite.seedCommand.launch? with
  | none => throw (.suite (.emptyInvocation suite.seedCommand.name))
  | some launch =>
    match ← Action.capture launch with
    | .error cause =>
      journal.note (.failure ("Failed to run " ++ suite.seedCommand.name))
      throw (.start cause)
    | .ok captured => suite.judgeLock journal captured

/-- Make a directory of the suite. -/
def makeDir (path : Path) : ExceptT SeedFailure Action Unit := do
  match ← Action.makeDirs path with
  | .error cause => throw (.directory path cause)
  | .ok () => return ()

/-- Give the suite its directories, its manifest and its first lock. -/
def seed
    (suite : Suite)
    (journal : Journal)
    (source : Path) : ExceptT SeedFailure Action Unit := do
  makeDir suite.context.workingDir
  makeDir suite.context.cacheDir
  match ← suite.seedManifest source with
  | .error failure => throw (.suite failure)
  | .ok _ => suite.initialLock journal

end Suite
end LockBench
