import LockBench.Proofs.Session.Launches
import LockBench.Proofs.Session.Layout
import LockBench.Proofs.Session.Separation

/-!
# What a tool is told

Every tool is told of its directories in its own way, and the preparation is
told of them once more.  What is read off the processes that a line starts is
what is read off the line of its preparation: the tool works in the directory
of the lockfile and the virtual environment that are cleared, and uses the
cache that is cleared.
-/

namespace LockBench

/-! ## Parents of paths -/

namespace Path

/-- What a path is compared by: whether it starts at the root or with a dot,
and its steps. -/
def components (path : Path) : List String :=
  (if path.isAbsolute then ["/"]
  else if path.parts.head? = some "." then ["."] else []) ++ path.steps

/-- A path leads to an entry of a directory. -/
def IsParentOf (dir path : Path) : Prop :=
  ∃ name, IsName name ∧ path.components = dir.components ++ [name]

theorem splitFrom_ne_nil
    (mark : Char)
    (current text : List Char) :
    splitFrom mark current text ≠ [] := by
  induction text generalizing current with
  | nil => simp [splitFrom]
  | cons c rest inductionHypothesis =>
      rw [splitFrom]
      split
      · simp
      · exact inductionHypothesis _

/-- A path starts with a dot where the directory in front of it does. -/
theorem head?_parts_join
    (dir : Path)
    {name : String}
    (isName : IsName name) :
    (dir.join name).parts.head? = some "." ↔ dir.parts.head? = some "." := by
  have notAbsolute : name.toList.head? ≠ some '/' := by
    intro starts
    exact isName.1 (List.mem_of_head? starts)
  have notDot : name ≠ "." := by
    rintro rfl
    exact absurd isName (by decide)
  have name_eq : splitFrom '/' [] name.toList = [name] := by
    simpa using splitFrom_of_notMem isName.1 []
  have head?_append : ∀ (front back : List String), front ≠ [] ->
      (front ++ back).head? = front.head? := by
    intro front back someFront
    obtain ⟨first, rest, rfl⟩ := List.exists_cons_of_ne_nil someFront
    rfl
  rw [join, if_neg notAbsolute]
  by_cases isEmpty : dir.text.isEmpty = true
  · have text_eq : dir.text = "" := by simpa using isEmpty
    simp [text_eq, parts, splitAt, name_eq, notDot, splitFrom]
  by_cases endsInSlash : dir.text.toList.getLast? = some '/'
  · obtain ⟨init, text_eq⟩ := List.getLast?_eq_some_iff.mp endsInSlash
    simp [parts, splitAt, text_eq, splitFrom_append, name_eq,
      head?_append _ _ (splitFrom_ne_nil '/' [] init), isEmpty]
  · simp [isEmpty, endsInSlash, parts, splitAt, splitFrom_append,
      head?_append _ _ (splitFrom_ne_nil '/' [] dir.text.toList)]

/-- A directory is the parent of what has a name in it. -/
theorem isParentOf_join
    (dir : Path)
    {name : String}
    (isName : IsName name) : dir.IsParentOf (dir.join name) := by
  refine ⟨name, isName, ?_⟩
  simp only [components, isAbsolute_join_eq dir isName, steps_join dir isName,
    head?_parts_join dir isName, List.append_assoc]

end Path

/-! ## What a process is told -/

namespace Launch

/-- The value of a variable that is set for a process. -/
def setting?
    (launch : Launch)
    (name : String) : Option String :=
  launch.environment.lookup name

/-- The first argument, by which a tool chooses what to do. -/
def subcommand? (launch : Launch) : Option String :=
  launch.arguments.head?

/-- The value of an option in a list of options, each of which takes the
argument after it as it is. -/
def valueOf?
    (name : String) : List String -> Option String
  | option :: value :: rest =>
    if option = name then some value else valueOf? name rest
  | _ => none

/-- The value of an option after the subcommand. -/
def option?
    (launch : Launch)
    (name : String) : Option String :=
  valueOf? name launch.arguments.tail

end Launch

/-- The directory that a tool is told to work in, as often as it is told. -/
def Tool.toldDirs
    (tool : Tool)
    (launch : Launch) : List (Option String) :=
  match tool with
  | .ripenv => [launch.workingDir.map Path.text]
  | .pipenv =>
    [launch.workingDir.map Path.text, launch.setting? "WORKON_HOME"]
  | .uv => [launch.option? "--directory"]

/-- The directory that a tool is told to keep its cache in. -/
def Tool.toldCache?
    (tool : Tool)
    (launch : Launch) : Option String :=
  match tool with
  | .ripenv => launch.setting? "UV_CACHE_DIR"
  | .pipenv => launch.setting? "PIPENV_CACHE_DIR"
  | .uv => launch.option? "--cache-dir"

/-- The subcommands of a step, one after another. -/
def Tool.subcommands : Tool -> Step -> List Step
  | .uv, .install => [.lock, .sync]
  | _, step => [step]

/-- What the preparation of a command removes, none of it where there is no
preparation. -/
def Command.removals? (command : Command) : Option (List Shell.Removal) :=
  match command.prepare with
  | none => some []
  | some line => Shell.removals? line

namespace StateLayout

/-- Where the paths hold no NUL, a preparation is read back as its
removals. -/
theorem removals?_prepare
    {layout : StateLayout}
    (nulFree : Shell.NulFree layout.lockfile.text ∧
      Shell.NulFree layout.venv.text ∧ Shell.NulFree layout.cacheDir.text)
    (operation : Operation)
    {command : Command}
    (prepare_eq : command.prepare = layout.prepare? operation) :
    command.removals? = some (layout.removals operation) := by
  obtain ⟨nulFreeLockfile, nulFreeVenv, nulFreeCache⟩ := nulFree
  rw [Command.removals?, prepare_eq, prepare?, clearing_eq]
  cases removals_eq : layout.removals operation with
  | nil => rfl
  | cons removal rest =>
      refine Shell.removals?_lines (List.cons_ne_nil removal rest) ?_
      intro other member
      rw [← removals_eq, mem_removals_iff] at member
      rcases member with ⟨-, rfl⟩ | ⟨-, rfl⟩ | ⟨-, rfl⟩
      · exact nulFreeLockfile
      · exact nulFreeVenv
      · exact nulFreeCache

end StateLayout

/-! ## Commands and their preparations -/

namespace Suite

/-- A process runs a tool where the tool's artifacts are. -/
structure Serves
    (suite : Suite)
    (layout : StateLayout)
    (launch : Launch) : Prop where
  /-- It is the binary of the suite. -/
  program : launch.program = suite.context.binary.text
  /-- It works where the lockfile and the virtual environment are. -/
  works : ∀ told ∈ suite.tool.toldDirs launch, ∃ dir, told = some dir ∧
    Path.IsParentOf ⟨dir⟩ layout.lockfile ∧ Path.IsParentOf ⟨dir⟩ layout.venv
  /-- It keeps its cache where the layout has it. -/
  caches : suite.tool.toldCache? launch = some layout.cacheDir.text

/-- A command runs the steps of an operation where its preparation clears
their artifacts. -/
structure Agrees
    (suite : Suite)
    (operation : Operation)
    (command : Command) : Prop where
  /-- The name tells of the tool, the operation and the label. -/
  name : command.name =
    suite.tool.name ++ " " ++ operation.name ++ " (" ++ suite.label ++ ")"
  /-- The line starts the tool where its artifacts are, with the subcommands of
  the step. -/
  starts : ∃ launches, Shell.launches? command.shellLine = some launches ∧
    launches.map Launch.subcommand? =
      (suite.tool.subcommands operation.step).map (some ·.name) ∧
    ∀ launch ∈ launches,
      suite.Serves (StateLayout.of suite.tool suite.context) launch
  /-- The preparation removes these artifacts. -/
  clears : ∃ removals, command.removals? = some removals ∧
    ∀ removal, removal ∈ removals ↔
      operation.clearsLockfile = true ∧
          removal = ⟨false, (StateLayout.of suite.tool suite.context).lockfile⟩ ∨
        operation.clearsVenv = true ∧
          removal = ⟨true, (StateLayout.of suite.tool suite.context).venv⟩ ∨
        operation.clearsCache = true ∧
          removal = ⟨true, (StateLayout.of suite.tool suite.context).cacheDir⟩

/-- The directory of the project is the parent of its artifacts. -/
theorem isParentOf_artifacts (suite : Suite) :
    suite.context.workingDir.IsParentOf suite.layout.lockfile ∧
      suite.context.workingDir.IsParentOf suite.layout.venv :=
  ⟨Path.isParentOf_join _ suite.tool.isName_lockfileName,
    Path.isParentOf_join _ StateLayout.isName_venvName⟩

/-- Every process of a suite serves its layout. -/
theorem serves_launch
    (suite : Suite)
    (step : Step) : suite.Serves suite.layout (suite.launch step) := by
  have toldDirs_eq : ∀ told ∈ suite.tool.toldDirs (suite.launch step),
      told = some suite.context.workingDir.text := by
    cases tool_eq : suite.tool <;>
      simp [Tool.toldDirs, launch, directory, environment, words, tool_eq,
        Launch.setting?, Launch.option?, Launch.valueOf?, List.lookup_cons]
  refine ⟨rfl, ?_, ?_⟩
  · intro told isTold
    exact ⟨_, toldDirs_eq told isTold, suite.isParentOf_artifacts⟩
  · cases tool_eq : suite.tool <;>
      simp [Tool.toldCache?, launch, environment, words, tool_eq, layout,
        StateLayout.of, Launch.setting?, Launch.option?, Launch.valueOf?,
        List.lookup_cons]

theorem subcommand?_launch
    (suite : Suite)
    (step : Step) :
    (suite.launch step).subcommand? = some step.name := by
  rw [Launch.subcommand?, launch, words]
  split <;> rfl

/-- The processes of a step are those of its subcommands. -/
theorem launches_eq
    (suite : Suite)
    (step : Step) :
    suite.launches step = (suite.tool.subcommands step).map suite.launch := by
  obtain ⟨tool, context, project, manifest⟩ := suite
  cases tool <;> cases step <;> rfl

theorem nulFree_layout
    {suite : Suite}
    (nulFree : suite.context.NulFree) :
    Shell.NulFree suite.layout.lockfile.text ∧
      Shell.NulFree suite.layout.venv.text ∧
      Shell.NulFree suite.layout.cacheDir.text :=
  ⟨Shell.nulFree_join nulFree.workingDir suite.tool.isName_lockfileName.2.1,
    Shell.nulFree_join nulFree.workingDir StateLayout.isName_venvName.2.1,
    nulFree.cacheDir⟩

/-- Every command of a suite runs where its preparation clears. -/
theorem agrees_of_command?
    {suite : Suite}
    (nulFree : suite.context.NulFree)
    (nulFreeManifest : suite.tool = .ripenv ->
      ∀ manifest ∈ suite.manifest, Shell.NulFree manifest.text)
    {operation : Operation}
    {command : Command}
    (supported : suite.command? operation = some command) :
    suite.Agrees operation command := by
  have startable := startable_of_nulFree nulFree nulFreeManifest .lock
  have starts := launches?_shellLine startable supported
  have prepare_eq : command.prepare = suite.layout.prepare? operation ∧
      command.name = suite.commandName operation := by
    rw [command?] at supported
    split at supported
    · cases supported
      exact ⟨rfl, rfl⟩
    · cases supported
  refine ⟨prepare_eq.2, ⟨_, starts, ?_, ?_⟩, ⟨_,
    StateLayout.removals?_prepare (nulFree_layout nulFree) operation
      prepare_eq.1, suite.layout.mem_removals_iff operation⟩⟩
  · rw [launches_eq, List.map_map]
    exact List.map_congr_left fun step _ => suite.subcommand?_launch step
  · intro launch member
    rw [launches_eq, List.mem_map] at member
    obtain ⟨step, -, rfl⟩ := member
    exact suite.serves_launch step

/-- What a preparation clears is what its command uses: a suite has a command
for every operation that it supports and for no other, each command runs where
its preparation clears, and the initial lock is that of a lock which finds
everything as it was. -/
theorem prepares_what_runs
    (suite : Suite)
    (nulFree : suite.context.NulFree)
    (nulFreeManifest : suite.tool = .ripenv ->
      ∀ manifest ∈ suite.manifest, Shell.NulFree manifest.text) :
    (∀ operation, (suite.command? operation).isSome = true ↔
      operation ∈ suite.operations) ∧
    (∀ operation command, suite.command? operation = some command ->
      suite.Agrees operation command) ∧
    ∃ noop, suite.command? .lockNoop = some noop ∧
      suite.seedCommand.invocation = noop.invocation ∧
      suite.seedCommand.environment = noop.environment ∧
      suite.seedCommand.workingDir = noop.workingDir := by
  refine ⟨suite.command?_isSome_iff, fun operation command supported =>
    agrees_of_command? nulFree nulFreeManifest supported, ?_⟩
  have supported : .lockNoop ∈ suite.operations := by
    rw [operations]
    cases suite.tool <;> decide
  exact ⟨_, if_pos supported, rfl, rfl, rfl⟩

/-- A tool that is told of its directories by variables, with paths that a
shell would take apart if they were not quoted. -/
theorem prepares_what_runs_quoted :
    let suite : Suite :=
      { tool := .ripenv
        context :=
          { binary := ⟨"/opt/it's ripenv"⟩
            label := "ripenv"
            workingDir := ⟨"./my $project; cd /"⟩
            cacheDir := ⟨"/tmp/\x22cache\x22 && rm -rf *"⟩ }
        manifest := some ⟨"../Pip file"⟩ }
    suite.context.NulFree ∧
      (∀ manifest ∈ suite.manifest, Shell.NulFree manifest.text) ∧
      suite.command? .syncNoop = none ∧
      ∃ command, suite.command? .installCold = some command ∧
        suite.Agrees .installCold command := by
  intro suite
  have nulFree : suite.context.NulFree :=
    ⟨by decide, by decide, by decide⟩
  have nulFreeManifest :
      ∀ manifest ∈ suite.manifest, Shell.NulFree manifest.text := by
    rintro _ ⟨⟩
    decide
  obtain ⟨supports, agrees, -⟩ :=
    prepares_what_runs suite nulFree fun _ => nulFreeManifest
  refine ⟨nulFree, nulFreeManifest, ?_, ?_⟩
  · rw [← Option.not_isSome_iff_eq_none, supports]
    decide
  · obtain ⟨command, supported⟩ := Option.isSome_iff_exists.mp
      ((supports .installCold).mpr (by decide))
    exact ⟨command, supported, agrees _ command supported⟩

end Suite
end LockBench
