import LockBench.Proofs.Session.Finding

/-!
# Flags outrank the configuration

An option of a run is configured only where no flag of the run decides it.
Either of the two flags for the number of timed runs decides both configured
counts, and a tool's configured binaries matter only where the tool is selected
and none was given.  So configurations that agree on what the flags leave open
make the same run: a tree of the same requests, which finds, starts and leaves
the same on every host.
-/

namespace LockBench
namespace RunTask

/-- Two configurations agree on all that the flags of a run leave open. -/
structure AgreeWhereOpen
    (task : RunTask)
    (config other : Config) : Prop where
  /-- The number of runs that are not timed has a flag of its own. -/
  warmup : task.warmup = none -> config.warmup = other.warmup
  /-- Either flag for the number of timed runs decides the least number. -/
  minRuns : task.runs = none -> task.minRuns = none ->
    config.minRuns = other.minRuns
  /-- Either flag for the number of timed runs decides the exact number. -/
  runs : task.runs = none -> task.minRuns = none -> config.runs = other.runs
  /-- The directory of timings matters where timings are exported. -/
  resultsDir : task.json = true -> task.resultsDir = none ->
    config.resultsDir = other.resultsDir
  /-- The directory of fixtures has a flag of its own. -/
  fixturesDir : task.fixturesDir = none ->
    config.fixturesDir = other.fixturesDir
  /-- The timing program has a flag of its own. -/
  hyperfinePath : task.hyperfine = none ->
    config.hyperfinePath = other.hyperfinePath
  /-- No flag decides the interpreter versions of generated projects. -/
  requiresPython : config.requiresPython = other.requiresPython
  /-- No flag decides the name of generated projects. -/
  projectName : config.projectName = other.projectName
  /-- The binaries of a tool matter where it is selected without any. -/
  tools : ∀ tool ∈ task.tools.selected, task.paths.of tool = [] ->
    config.tools.of tool = other.tools.of tool

/-- A value that was given outranks the configured one, so only where none was
given need two configured values be the same. -/
theorem or_map_eq
    {given : Option β}
    {configured other : Option α}
    (same : given = none -> configured = other)
    (read : α -> β) :
    given.or (configured.map read) = given.or (other.map read) := by
  cases given with
  | none => rw [same rfl]
  | some value => rfl

namespace AgreeWhereOpen

variable {task : RunTask} {config other : Config}
  (agree : task.AgreeWhereOpen config other)

include agree

/-! ## Options -/

theorem warmup_eq :
    task.warmup.getD config.warmupOrDefault =
      task.warmup.getD other.warmupOrDefault := by
  cases asked : task.warmup with
  | none => rw [Config.warmupOrDefault, Config.warmupOrDefault,
      agree.warmup asked]
  | some count => rfl

theorem runCount_eq : task.runCount config = task.runCount other := by
  rw [runCount, runCount]
  cases exact : task.runs with
  | some count => rfl
  | none =>
      cases least : task.minRuns with
      | some count => rfl
      | none =>
          rw [Config.minRunsOrDefault, Config.minRunsOrDefault,
            agree.runs exact least, agree.minRuns exact least]

theorem exportDir_eq :
    (if task.json then some (config.resultsDirOr task.resultsDir) else none) =
      if task.json then some (other.resultsDirOr task.resultsDir)
      else none := by
  split
  · rename_i exports
    rw [Config.resultsDirOr, Config.resultsDirOr,
      or_map_eq (agree.resultsDir exports)]
  · rfl

theorem harnessOptions_eq (verbosity : Nat) :
    task.harnessOptions config verbosity =
      task.harnessOptions other verbosity := by
  rw [harnessOptions, harnessOptions, agree.warmup_eq, agree.runCount_eq,
    agree.exportDir_eq]

theorem projectOptions_eq :
    config.projectOptions none none = other.projectOptions none none := by
  simp only [Config.projectOptions, Config.projectNameOrDefault,
    Config.requiresPythonOrDefault, agree.requiresPython, agree.projectName]

/-! ## Finding what is needed -/

theorem findFixture_eq : task.findFixture config = task.findFixture other := by
  rw [findFixture, findFixture, or_map_eq agree.fixturesDir]

theorem findBinaries_eq
    (journal : Journal)
    {tool : Tool}
    (selected : tool ∈ task.tools.selected) :
    task.findBinaries journal config tool =
      task.findBinaries journal other tool := by
  rw [findBinaries, findBinaries]
  cases given : task.paths.of tool with
  | cons first rest => rfl
  | nil => rw [agree.tools tool selected given]

theorem findAll_eq
    (journal : Journal)
    {tools : List Tool}
    (selected : ∀ tool ∈ tools, tool ∈ task.tools.selected) :
    task.findAll journal config tools = task.findAll journal other tools := by
  induction tools with
  | nil => rfl
  | cons tool rest inductionHypothesis =>
      rw [List.forall_mem_cons] at selected
      rw [findAll, findAll, agree.findBinaries_eq journal selected.1,
        inductionHypothesis selected.2]

theorem seek_eq (journal : Journal) :
    task.seek journal config = task.seek journal other := by
  rw [seek, seek, agree.findFixture_eq,
    agree.findAll_eq journal fun _ isSelected => isSelected,
    or_map_eq agree.hyperfinePath]

/-! ## The session -/

theorem session_eq
    (journal : Journal)
    (verbosity : Nat)
    (fixture : Fixture)
    (tools : List (Tool × List Path))
    (hyperfine sessionDir : Path) :
    task.session journal config verbosity fixture tools hyperfine sessionDir =
      task.session journal other verbosity fixture tools hyperfine
        sessionDir := by
  rw [session, session, agree.projectOptions_eq,
    agree.harnessOptions_eq verbosity]

end AgreeWhereOpen

/-- Two configurations that agree on all that the flags of a run leave open
make the same run.  It looks for the same things and finds the same fixture,
timing program and binaries, and as a whole it makes the same requests, started
processes among them, and has the same result, whatever a host answers. -/
theorem flags_outrank_config
    {task : RunTask}
    {config other : Config}
    (agree : task.AgreeWhereOpen config other)
    (journal : Journal)
    (verbosity : Nat) :
    task.seek journal config = task.seek journal other ∧
      task.perform journal config verbosity =
        task.perform journal other verbosity := by
  refine ⟨agree.seek_eq journal, ?_⟩
  rw [perform_eq_seek, perform_eq_seek, agree.seek_eq journal]
  simp only [agree.session_eq journal verbosity]

/-- A run whose flags leave nothing open but the options of generated
projects. -/
def decided : RunTask where
  fixture := "trio"
  tools := { ripenv := true }
  paths := { ripenv := ["/bin/ripenv"] }
  warmup := some 0
  minRuns := some 7
  json := true
  resultsDir := some ⟨"out"⟩
  hyperfine := some ⟨"/bin/hyperfine"⟩
  fixturesDir := some ⟨"fixtures"⟩

/-- A configuration of all that these flags decide. -/
def outranked : Config where
  warmup := some 5
  minRuns := some 2
  runs := some 4
  resultsDir := some "elsewhere"
  fixturesDir := some "elsewhere"
  hyperfinePath := some "/opt/hyperfine"
  projectName := some "project"
  tools := { ripenv := ["/opt/ripenv"], pipenv := ["/opt/pipenv"], uv := ["u"] }

theorem flags_outrank_config_decided :
    let plain : Config := { projectName := some "project" }
    decided.AgreeWhereOpen outranked plain ∧
      decided.seek {} outranked = decided.seek {} plain ∧
      decided.perform {} outranked 0 = decided.perform {} plain 0 := by
  intro plain
  have agree : decided.AgreeWhereOpen outranked plain :=
    ⟨by decide, by decide, by decide, by decide, by decide, by decide, rfl,
      rfl, by decide⟩
  exact ⟨agree, flags_outrank_config agree {} 0⟩

end RunTask
end LockBench
