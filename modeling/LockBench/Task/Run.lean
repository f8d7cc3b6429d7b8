import LockBench.Failure
import LockBench.Session.Plan
import LockBench.Session.Timing
import LockBench.Task.Report
import LockBench.Task.Translate

/-!
# Running benchmarks

A run finds its fixture, its tools and its timing program, seeds one suite for
every binary in a fresh session directory, times the operations one after
another, and removes the session directory whatever came of it.
-/

namespace LockBench

/-- Which tools were asked for by name. -/
structure ToolSwitches where
  /-- Whether ripenv was asked for. -/
  ripenv : Bool := false
  /-- Whether pipenv was asked for. -/
  pipenv : Bool := false
  /-- Whether uv was asked for. -/
  uv : Bool := false
  deriving DecidableEq, Repr

namespace ToolSwitches

/-- Whether a tool was asked for. -/
def of (switches : ToolSwitches) : Tool -> Bool
  | .ripenv => switches.ripenv
  | .pipenv => switches.pipenv
  | .uv => switches.uv

/-- The tools that were asked for; all of them where none was. -/
def selected (switches : ToolSwitches) : List Tool :=
  match Tool.all.filter switches.of with
  | [] => Tool.all
  | chosen => chosen

end ToolSwitches

/-- A run that was asked for. -/
structure RunTask where
  /-- The fixture, by name or path. -/
  fixture : String
  /-- The tools that were asked for by name. -/
  tools : ToolSwitches := {}
  /-- Binaries that were asked for by path. -/
  paths : ToolPaths := {}
  /-- The operations that were asked for. -/
  operations : List Operation := []
  /-- The number of runs that are not timed. -/
  warmup : Option Nat := none
  /-- The least number of timed runs. -/
  minRuns : Option Nat := none
  /-- The exact number of timed runs. -/
  runs : Option Nat := none
  /-- Whether timings are exported. -/
  json : Bool := false
  /-- The directory of exported timings. -/
  resultsDir : Option Path := none
  /-- The timing program. -/
  hyperfine : Option Path := none
  /-- The directory of fixtures. -/
  fixturesDir : Option Path := none
  deriving DecidableEq, Repr

namespace RunTask

/-! ## Options -/

/-- The operations of a run. -/
def chosenOperations (task : RunTask) : List Operation :=
  if task.operations.isEmpty then Operation.defaults else task.operations

/-- The number of timed runs.  What was asked for outranks all that is
configured. -/
def runCount
    (task : RunTask)
    (config : Config) : RunCount :=
  match task.runs, task.minRuns, config.runs with
  | some count, _, _ => .exactly count
  | none, some count, _ => .atLeast count
  | none, none, some count => .exactly count.toNat
  | none, none, none => .atLeast config.minRunsOrDefault

/-- The options of the timing program. -/
def harnessOptions
    (task : RunTask)
    (config : Config)
    (verbosity : Nat) : HarnessOptions where
  warmup := task.warmup.getD config.warmupOrDefault
  runs := task.runCount config
  showOutput := 0 < verbosity
  exportDir :=
    if task.json then some (config.resultsDirOr task.resultsDir) else none

/-! ## Finding what is needed -/

/-- The fixture of a run. -/
def findFixture
    (task : RunTask)
    (config : Config) : Attempt Fixture := do
  let dir := task.fixturesDir.or (config.fixturesDir.map Path.mk)
  match ← Fixture.resolve? task.fixture dir with
  | some fixture => return fixture
  | none => throw (.unknownFixture task.fixture (← Fixture.available dir))

/-- The binaries of a tool: those that were asked for, or else those that are
configured, or else the one on the search path. -/
def findBinaries
    (task : RunTask)
    (journal : Journal)
    (config : Config)
    (tool : Tool) : Action (List Path) := do
  match task.paths.of tool, config.tools.of tool with
  | [], [] =>
    match ← Discovery.findBinary? tool.name with
    | some path => return [path]
    | none =>
      journal.note (.warn (tool.name ++ " not found on PATH, skipping"))
      return []
  | [], configured => return configured.map Path.mk
  | asked, _ => return asked.map Path.mk

/-- The binaries of some tools, without the tools that have none. -/
def findTools
    (task : RunTask)
    (journal : Journal)
    (config : Config) : List Tool -> Action (List (Tool × List Path))
  | [] => return []
  | tool :: rest => do
    let binaries ← task.findBinaries journal config tool
    let others ← findTools task journal config rest
    return if binaries.isEmpty then others else (tool, binaries) :: others

/-- The directory of files that are not meant to stay. -/
def temporaryDir : Action Path := do
  let dir : Path := ⟨(← Action.environment "TMPDIR").getD "/tmp"⟩
  if dir.isAbsolute then return dir
  else return (← Action.workingDir).join dir.text

/-! ## The session -/

/-- The suites of a session, in order of the tools and their binaries. -/
def planSuites
    (project : ProjectOptions)
    (sessionDir : Path)
    (tools : List (Tool × List Path)) : List Suite :=
  tools.flatMap fun (tool, binaries) =>
    (Session.planContexts tool sessionDir binaries).map fun context =>
      { tool, context, project }

/-- Seed suites one after another. -/
def seedAll
    (journal : Journal)
    (pipfile : Path) : List Suite -> Attempt Unit
  | [] => return ()
  | suite :: rest => do
    Attempt.lift Failure.ofSeed (suite.seed journal pipfile)
    seedAll journal pipfile rest

/-- What a session is about to do, a line each. -/
def headerText
    (colored : Bool)
    (fixture : String)
    (suites : List Suite)
    (operations : List Operation) : String :=
  let bold := Style.emphasis.paint colored
  "\n" ++ bold "Benchmarking fixture:" ++ " " ++ fixture ++ "\n" ++
    bold "Tools:" ++ " " ++
      ", ".intercalate (suites.map Suite.displayName) ++ "\n" ++
    bold "Benchmarks:" ++ " " ++
      ", ".intercalate (operations.map Operation.name) ++ "\n"

/-- Tell where the timings of an outcome are, if they are there. -/
def announceExport
    (journal : Journal)
    (outcome : Outcome) : Action Unit := do
  match outcome.exportPath with
  | none => return ()
  | some path =>
    if ← Action.pathExists path then
      journal.note
        (.info (outcome.operation.name ++ " results: " ++ path.text))

/-- How the end of a session is reported. -/
def closing (summary : Summary) : Entry :=
  let count := toString summary.outcomes.length
  if summary.failed.isEmpty then
    .success ("Completed " ++ count ++ " benchmark(s)")
  else
    .warn (toString summary.failed.length ++ " of " ++ count ++
      " benchmark(s) reported a failure")

/-- Report the end of a session. -/
def reportSummary
    (journal : Journal)
    (summary : Summary) : Action Unit := do
  summary.skipped.forM fun operation =>
    journal.note (.info ("Skipped " ++ operation.name ++
      ": no selected tool supports it"))
  summary.outcomes.forM (announceExport journal)
  journal.note (closing summary)

/-- Everything that happens in a session's directory. -/
def session
    (task : RunTask)
    (journal : Journal)
    (config : Config)
    (verbosity : Nat)
    (fixture : Fixture)
    (tools : List (Tool × List Path))
    (hyperfine sessionDir : Path) : Attempt Summary := do
  journal.note (.debug ("Session directory: " ++ sessionDir.text))
  let pipfile ← Attempt.lift Failure.ofFixture (fixture.materialize sessionDir)
  let suites := planSuites (config.projectOptions none none) sessionDir tools
  seedAll journal pipfile suites
  Action.print (headerText journal.colored task.fixture suites
    task.chosenOperations)
  let harness : Harness := ⟨hyperfine, task.harnessOptions config verbosity⟩
  let summary ← Attempt.lift .harness
    (Session.timeGroups journal (harness.time journal) suites
      task.chosenOperations)
  reportSummary journal summary
  return summary

/-- Carry out a run. -/
def perform
    (task : RunTask)
    (journal : Journal)
    (config : Config)
    (verbosity : Nat) : Attempt Summary := do
  let fixture ← task.findFixture config
  let tools ← task.findTools journal config task.tools.selected
  let hyperfine ← Attempt.lift .discovery
    (Discovery.findHyperfine
      (task.hyperfine.or (config.hyperfinePath.map Path.mk)))
  if tools.isEmpty then throw .noTools
  let parent ← temporaryDir
  let sessionDir ← Attempt.lift .io
    (Action.makeFreshDir parent "bench-ripenv-")
  let result ← ExceptT.lift (task.session journal config verbosity fixture
    tools hyperfine sessionDir).run
  Action.removeTree sessionDir
  Attempt.lift id (pure result)

end RunTask
end LockBench
