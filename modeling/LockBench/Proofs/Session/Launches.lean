import LockBench.Host.Machine
import LockBench.Proofs.Command.ShellLine
import LockBench.Proofs.Shell.Removal
import LockBench.Suite

/-!
# The processes of a suite

The line of a suite's command starts the tool once, or twice where the tool
installs by locking and syncing.  The initial lock starts the same process as
a timed lock.
-/

namespace LockBench

/-- A process without NUL is one none of whose texts holds it. -/
theorem Machine.holdsNul_eq_false_iff (launch : Launch) :
    Machine.holdsNul launch = false ↔
      Shell.NulFree launch.program ∧
        (∀ argument ∈ launch.arguments, Shell.NulFree argument) ∧
        (∀ setting ∈ launch.environment,
          Shell.NulFree setting.1 ∧ Shell.NulFree setting.2) ∧
        ∀ dir ∈ launch.workingDir, Shell.NulFree dir.text := by
  have nulFree_iff : ∀ text : String,
      ¬text.toList.contains '\x00' = true ↔ Shell.NulFree text := by
    intro text
    rw [List.contains_iff_mem, Shell.NulFree]
  rw [Machine.holdsNul, List.any_eq_false]
  simp only [nulFree_iff, List.cons_append, List.append_assoc,
    List.forall_mem_cons, List.forall_mem_append, List.forall_mem_flatMap,
    List.not_mem_nil, false_implies, implies_true, and_true]
  refine and_congr_right fun _ => and_congr_right fun _ =>
    and_congr_right fun _ => ?_
  cases launch.workingDir <;> simp

/-- What a suite is bound to can be handed to a process. -/
structure Context.NulFree (context : Context) : Prop where
  /-- The binary holds no NUL. -/
  binary : Shell.NulFree context.binary.text
  /-- The directory of the project holds none. -/
  workingDir : Shell.NulFree context.workingDir.text
  /-- The directory of the cache holds none. -/
  cacheDir : Shell.NulFree context.cacheDir.text

namespace Suite

/-- The process of one step of the tool. -/
def launch
    (suite : Suite)
    (step : Step) : Launch where
  program := suite.context.binary.text
  arguments := (suite.words step).tail
  environment := suite.environment
  workingDir := suite.directory

/-- The processes of a step, one after another. -/
def launches
    (suite : Suite)
    (step : Step) : List Launch :=
  match suite.tool, step with
  | .uv, .install => [suite.launch .lock, suite.launch .sync]
  | _, step => [suite.launch step]

theorem words_eq
    (suite : Suite)
    (step : Step) :
    suite.words step =
      (suite.launch step).program :: (suite.launch step).arguments := by
  simp only [launch, words]
  split <;> rfl

/-- The initial lock is the process of a lock. -/
theorem launch?_seedCommand (suite : Suite) :
    suite.seedCommand.launch? = some (suite.launch .lock) := by
  have invocation_eq : suite.invocation .lock = .words (suite.words .lock) := by
    unfold invocation
    split
    · contradiction
    · rfl
  rw [Command.launch?, seedCommand, invocation_eq, words_eq]
  rfl

/-- Steps differ in a subcommand, so all of them can be started if one can. -/
theorem nulFree_launch
    {suite : Suite}
    {step : Step}
    (startable : Machine.holdsNul (suite.launch step) = false)
    (other : Step) :
    Machine.holdsNul (suite.launch other) = false := by
  rw [Machine.holdsNul_eq_false_iff] at startable ⊢
  obtain ⟨nulFreeProgram, nulFreeArguments, nulFreeRest⟩ := startable
  refine ⟨nulFreeProgram, ?_, nulFreeRest⟩
  have nulFreeName : Shell.NulFree other.name := by cases other <;> decide
  simp only [launch, words] at nulFreeArguments ⊢
  split at nulFreeArguments
  all_goals
    rw [List.tail_cons, List.forall_mem_cons] at nulFreeArguments ⊢
    exact ⟨nulFreeName, nulFreeArguments.2⟩

/-- The variables of a tool have names of the shell. -/
theorem isName_of_mem_environment
    {suite : Suite}
    {setting : String × String}
    (present : setting ∈ suite.environment) :
    Shell.isName setting.1.toList = true := by
  have names : ∀ name ∈ ["PIPENV_PIPFILE", "UV_CACHE_DIR", "PIPENV_CACHE_DIR",
      "PIPENV_VENV_IN_PROJECT", "PIPENV_YES", "WORKON_HOME"],
      Shell.isName name.toList = true := by
    decide
  apply names
  rw [environment] at present
  split at present <;>
    simp only [List.mem_cons, List.not_mem_nil, or_false] at present
  · rcases present with rfl | rfl <;> simp
  · rcases present with rfl | rfl | rfl | rfl <;> simp

/-- The path of the manifest holds no NUL where it is given by one without. -/
theorem nulFree_manifestPath
    {suite : Suite}
    (nulFree : suite.context.NulFree)
    (nulFreeManifest : ∀ manifest ∈ suite.manifest,
      Shell.NulFree manifest.text) :
    Shell.NulFree suite.manifestPath.text := by
  rw [manifestPath]
  cases manifest_eq : suite.manifest with
  | some manifest => exact nulFreeManifest manifest (by simp [manifest_eq])
  | none => exact Shell.nulFree_join nulFree.workingDir (by decide)

/-- The variables of a tool hold no NUL where its context does not, and the
manifest does not where the tool is told of it. -/
theorem nulFree_environment
    {suite : Suite}
    (nulFree : suite.context.NulFree)
    (nulFreeManifest : suite.tool = .ripenv ->
      ∀ manifest ∈ suite.manifest, Shell.NulFree manifest.text) :
    ∀ setting ∈ suite.environment,
      Shell.NulFree setting.1 ∧ Shell.NulFree setting.2 := by
  intro setting present
  constructor
  · intro isNul
    exact absurd (Shell.isBare_of_isName (isName_of_mem_environment present)
      '\x00' isNul) (by decide)
  · have nulFreeOne : Shell.NulFree "1" := by decide
    rw [environment] at present
    split at present
    · next isRipenv =>
        simp only [List.mem_cons, List.not_mem_nil, or_false] at present
        rcases present with rfl | rfl
        · exact nulFree_manifestPath nulFree (nulFreeManifest isRipenv)
        · exact nulFree.cacheDir
    · simp only [List.mem_cons, List.not_mem_nil, or_false] at present
      rcases present with rfl | rfl | rfl | rfl
      · exact nulFree.cacheDir
      · exact nulFreeOne
      · exact nulFreeOne
      · exact nulFree.workingDir
    · cases present

/-- A tool can be started where its context holds no NUL, and the manifest
does not where the tool is told of it. -/
theorem startable_of_nulFree
    {suite : Suite}
    (nulFree : suite.context.NulFree)
    (nulFreeManifest : suite.tool = .ripenv ->
      ∀ manifest ∈ suite.manifest, Shell.NulFree manifest.text)
    (step : Step) : Machine.holdsNul (suite.launch step) = false := by
  have nulFreeName : Shell.NulFree step.name := by cases step <;> decide
  have nulFreeCacheOption : Shell.NulFree "--cache-dir" := by decide
  have nulFreeDirOption : Shell.NulFree "--directory" := by decide
  rw [Machine.holdsNul_eq_false_iff]
  refine ⟨nulFree.binary, ?_, nulFree_environment nulFree nulFreeManifest, ?_⟩
  · simp only [launch, words]
    split <;> simp [nulFreeName, nulFreeCacheOption, nulFreeDirOption,
      nulFree.workingDir, nulFree.cacheDir]
  · intro dir told
    simp only [launch, directory] at told
    split at told
    · cases told
    · obtain rfl := Option.some.inj told
      exact nulFree.workingDir

/-- The words of a step hold no NUL where the step can be started. -/
theorem nulFree_words
    {suite : Suite}
    {step : Step}
    (startable : Machine.holdsNul (suite.launch step) = false) :
    ∀ word ∈ suite.words step, Shell.NulFree word := by
  obtain ⟨nulFreeProgram, nulFreeArguments, _⟩ :=
    (Machine.holdsNul_eq_false_iff _).mp startable
  rw [suite.words_eq step, List.forall_mem_cons]
  exact ⟨nulFreeProgram, nulFreeArguments⟩

/-- The command of one step can be written as a line where the step can be
started. -/
theorem writable
    {suite : Suite}
    {step : Step}
    (startable : Machine.holdsNul (suite.launch step) = false)
    (name : String)
    (prepare : Option String) :
    Command.Writable
      { name, prepare
        environment := suite.environment
        workingDir := suite.directory
        invocation := .words (suite.words step) } := by
  obtain ⟨_, _, nulFreeEnvironment, nulFreeDir⟩ :=
    (Machine.holdsNul_eq_false_iff _).mp startable
  refine
    { names := fun setting present => isName_of_mem_environment present
      values := fun setting present => (nulFreeEnvironment setting present).2
      dir := nulFreeDir
      runs := ⟨?_, nulFree_words startable⟩ }
  rw [suite.words_eq step]
  exact List.cons_ne_nil _ _

/-- The line of a command that runs one step starts that step. -/
theorem launches?_words
    {suite : Suite}
    {step : Step}
    (startable : Machine.holdsNul (suite.launch step) = false)
    {command : Command}
    (environment_eq : command.environment = suite.environment)
    (workingDir_eq : command.workingDir = suite.directory)
    (invocation_eq : command.invocation = .words (suite.words step)) :
    Shell.launches? command.shellLine = some [suite.launch step] := by
  obtain ⟨name, prepare, environment, workingDir, invocation⟩ := command
  obtain rfl : environment = suite.environment := environment_eq
  obtain rfl : workingDir = suite.directory := workingDir_eq
  obtain rfl : invocation = .words (suite.words step) := invocation_eq
  have isWritable := suite.writable startable name prepare
  have read := (Command.readsList_shellLine isWritable).andList?_eq
  rw [String.ofList_toList] at read
  obtain ⟨direct, started, direct_eq, started_eq, same⟩ :=
    Command.listLaunches?_simple isWritable
  obtain rfl : started = direct := same
  rw [Shell.launches?, read, Option.bind_some, started_eq]
  rw [Command.launch?, words_eq, Option.some.injEq] at direct_eq
  rw [← direct_eq]
  rfl

/-- The words of two steps with an operator between them read as two
commands. -/
theorem andList?_join
    {suite : Suite}
    {step : Step}
    (startable : Machine.holdsNul (suite.launch step) = false)
    (first second : Step) :
    Shell.andList? (Shell.join (suite.words first) ++ " && " ++
        Shell.join (suite.words second)) =
      some [⟨[], suite.words first⟩, ⟨[], suite.words second⟩] := by
  have reads : ∀ other, Shell.ReadsList (Shell.join (suite.words other)).toList
      [⟨[], suite.words other⟩] := by
    intro other
    have someWord : suite.words other ≠ [] := by
      rw [suite.words_eq other]
      exact List.cons_ne_nil _ _
    exact Shell.readsList_join someWord
      (nulFree_words (nulFree_launch startable other))
  have line_eq : String.ofList ((Shell.join (suite.words first)).toList ++
      [' ', '&', '&', ' '] ++ (Shell.join (suite.words second)).toList) =
        Shell.join (suite.words first) ++ " && " ++
          Shell.join (suite.words second) := by
    simp [← String.toList_inj]
  rw [← line_eq]
  exact ((reads first).andIf (reads second)).andList?_eq

/-- The line of the tool that installs by locking and syncing starts both. -/
theorem launches?_join
    {suite : Suite}
    (isUv : suite.tool = .uv)
    (startable : Machine.holdsNul (suite.launch .lock) = false) :
    Shell.launches? (Shell.join (suite.words .lock) ++ " && " ++
        Shell.join (suite.words .sync)) =
      some [suite.launch .lock, suite.launch .sync] := by
  have noEnvironment : suite.environment = [] := by
    simp [environment, isUv]
  have noDirectory : suite.directory = none := by
    simp [directory, isUv]
  rw [Shell.launches?, andList?_join startable, Option.bind_some]
  -- The first command has more words than a change of the directory has.
  simp [Shell.listLaunches?, Shell.SimpleCommand.launch?, words, launch, isUv,
    noEnvironment, noDirectory]

/-- A step is one process, unless it is the one that locks and syncs. -/
theorem launches_cases
    (suite : Suite)
    (step : Step) :
    suite.tool = .uv ∧ step = .install ∧
        suite.launches step = [suite.launch .lock, suite.launch .sync] ∨
      suite.invocation step = .words (suite.words step) ∧
        suite.launches step = [suite.launch step] := by
  obtain ⟨tool, context, project, manifest⟩ := suite
  cases tool <;> cases step <;> simp [invocation, launches]

theorem exists_step_of_mem_launches
    (suite : Suite)
    (step : Step) :
    ∀ launch ∈ suite.launches step, ∃ other, launch = suite.launch other := by
  intro launch present
  rcases suite.launches_cases step with ⟨_, _, launches_eq⟩ | ⟨_, launches_eq⟩
  · rw [launches_eq, List.mem_cons, List.mem_singleton] at present
    rcases present with rfl | rfl
    · exact ⟨.lock, rfl⟩
    · exact ⟨.sync, rfl⟩
  · rw [launches_eq, List.mem_singleton] at present
    exact ⟨step, present⟩

/-- The line of a command starts the processes of its step. -/
theorem launches?_shellLine
    {suite : Suite}
    (startable : Machine.holdsNul (suite.launch .lock) = false)
    {operation : Operation}
    {command : Command}
    (supported : suite.command? operation = some command) :
    Shell.launches? command.shellLine =
      some (suite.launches operation.step) := by
  rw [command?] at supported
  split at supported
  · cases supported
    rcases suite.launches_cases operation.step with
      ⟨isUv, installs, launches_eq⟩ | ⟨invocation_eq, launches_eq⟩
    · have join_eq := launches?_join isUv startable
      rw [launches_eq]
      simpa [Command.shellLine, Command.directoryPart, Command.invocationPart,
        invocation, environment, directory, isUv, installs] using join_eq
    · rw [launches_eq]
      exact launches?_words (nulFree_launch startable operation.step) rfl rfl
        invocation_eq
  · cases supported

end Suite
end LockBench
