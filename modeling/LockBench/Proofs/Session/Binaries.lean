import LockBench.Proofs.Host.Programs
import LockBench.Proofs.Session.Finding
import LockBench.Proofs.Session.Launches

/-!
# Binaries that are given by path

A binary that is given by a path is not searched for.  The path is kept as it
is, and where it is relative and holds a slash, it is read from the directory
that the tool runs in: from where the run was started if the tool is told its
directory by an argument, and else from the working directory of its suite.
-/

namespace LockBench

/-- The processes that a process comes to: a shell that is handed a text
starts those of the text. -/
def Launch.comesTo? (launch : Launch) : Option (List Launch) :=
  match launch with
  | ⟨"sh", ["-c", text], [], none⟩ => Shell.launches? text
  | other => some [other]

namespace Suite

variable {suite : Suite} {command : Command} {machine : Machine}
  {location : Location}

/-- A command of a suite: the initial lock, or that of an operation. -/
def Makes
    (suite : Suite)
    (command : Command) : Prop :=
  command = suite.seedCommand ∨
    ∃ operation, suite.command? operation = some command

/-- The directory that the path of a suite's binary is read from. -/
def ReadsFrom
    (suite : Suite)
    (machine : Machine)
    (dir : Location) : Prop :=
  match suite.tool with
  | .uv => dir = machine.workingDir
  | _ => machine.tree.Leads machine.workingDir suite.context.workingDir dir
    .directory

/-! ## The processes of a command -/

/-- A step is no text for a shell, whatever the binary is called. -/
theorem comesTo?_launch
    (suite : Suite)
    (step : Step) :
    (suite.launch step).comesTo? = some [suite.launch step] := by
  obtain ⟨tool, context, project, manifest⟩ := suite
  cases tool <;> simp [Launch.comesTo?, launch, words, directory]

/-- The command of a step comes to the processes of the step. -/
theorem comesTo?_command?
    (startable : Machine.holdsNul (suite.launch .lock) = false)
    {operation : Operation}
    (supported : suite.command? operation = some command) :
    command.launch?.bind Launch.comesTo? =
      some (suite.launches operation.step) := by
  rw [command?] at supported
  split at supported
  · cases supported
    rcases suite.launches_cases operation.step with
      ⟨isUv, installs, launches_eq⟩ | ⟨invocation_eq, launches_eq⟩
    · have join_eq := launches?_join isUv startable
      rw [launches_eq]
      simpa [Command.launch?, Launch.comesTo?, invocation, environment,
        directory, isUv, installs] using join_eq
    · have launch_eq : Command.launch?
          { name := suite.commandName operation
            prepare := suite.layout.prepare? operation
            environment := suite.environment
            workingDir := suite.directory
            invocation := suite.invocation operation.step } =
          some (suite.launch operation.step) := by
        rw [Command.launch?, invocation_eq, words_eq]
        rfl
      rw [launch_eq, launches_eq, Option.bind_some, comesTo?_launch]
  · cases supported

/-- A command comes to the same processes of one step as a line and when it is
started directly. -/
theorem launches_of_makes
    (startable : Machine.holdsNul (suite.launch .lock) = false)
    (makes : suite.Makes command) :
    ∃ step, Shell.launches? command.shellLine = some (suite.launches step) ∧
      command.launch?.bind Launch.comesTo? = some (suite.launches step) := by
  rcases makes with rfl | ⟨operation, supported⟩
  · refine ⟨.lock, ?_⟩
    rcases suite.launches_cases .lock with
      ⟨-, ⟨⟩, -⟩ | ⟨invocation_eq, launches_eq⟩
    rw [launches_eq, launch?_seedCommand, Option.bind_some, comesTo?_launch]
    exact ⟨launches?_words startable rfl rfl invocation_eq, rfl⟩
  · exact ⟨operation.step, launches?_shellLine startable supported,
      comesTo?_command? startable supported⟩

theorem launches_ne_nil
    (suite : Suite)
    (step : Step) : suite.launches step ≠ [] := by
  rcases suite.launches_cases step with ⟨-, -, launches_eq⟩ | ⟨-, launches_eq⟩
  all_goals
    rw [launches_eq]
    exact List.cons_ne_nil _ _

/-- The file that a step runs is the one that the path of the binary names from
the directory that it is read from. -/
theorem executes_launch_iff
    (startable : Machine.holdsNul (suite.launch .lock) = false)
    (slash : '/' ∈ suite.context.binary.text.toList)
    (step : Step) :
    machine.Executes (suite.launch step) location ↔
      ∃ dir, suite.ReadsFrom machine dir ∧
        machine.NamesProgram dir suite.context.binary location := by
  rw [Machine.executes_iff_of_slash slash,
    and_iff_right (nulFree_launch startable step)]
  refine exists_congr fun dir => and_congr_left fun _ => ?_
  rw [Machine.RunsIn, ReadsFrom, launch, directory]
  cases suite.tool <;> rfl

end Suite

namespace RunTask

/-- The binaries of a tool that are given by path: those that were asked for,
or else those that are configured. -/
def given
    (task : RunTask)
    (config : Config)
    (tool : Tool) : List String :=
  match task.paths.of tool with
  | [] => config.tools.of tool
  | asked => asked

section Given

variable {task : RunTask} {config : Config} {tool : Tool} {text : String}

/-- Binaries that are given are taken as they are. -/
theorem findBinaries_of_given
    (isGiven : text ∈ task.given config tool)
    (journal : Journal) :
    task.findBinaries journal config tool =
      pure ((task.given config tool).map Path.mk) := by
  rw [given] at isGiven ⊢
  rw [findBinaries]
  cases asked_eq : task.paths.of tool with
  | nil =>
      rw [asked_eq] at isGiven
      cases configured_eq : config.tools.of tool with
      | nil => simp [configured_eq] at isGiven
      | cons first others => rfl
  | cons first others => rfl

/-- The suites of a session can be started where neither the directory of the
session nor the binary holds NUL. -/
theorem startable_of_mem_planSuites
    {project : ProjectOptions}
    {sessionDir : Path}
    {tools : List (Tool × List Path)}
    {suite : Suite}
    (nulFreeDir : Shell.NulFree sessionDir.text)
    (planned : suite ∈ planSuites project sessionDir tools)
    (nulFree : Shell.NulFree suite.context.binary.text) :
    Machine.holdsNul (suite.launch .lock) = false := by
  rw [planSuites, List.mem_flatMap] at planned
  obtain ⟨⟨tool, binaries⟩, -, inTool⟩ := planned
  obtain ⟨context, isPlanned, rfl⟩ := List.mem_map.mp inTool
  obtain ⟨index, binary, -, rfl⟩ :=
    (Session.mem_planContexts_iff _ _ _ _).mp isPlanned
  obtain ⟨workingDir_eq, cacheDir_eq⟩ := Session.dirs_planContext tool
    sessionDir binaries.length index binary
  have nulFreeSlot : ∀ cached, Shell.NulFree (sessionDir.join
      (Session.Slot.name ⟨tool, index, cached⟩ binaries.length)).text :=
    fun cached => Shell.nulFree_join nulFreeDir
      (Session.Slot.isName_name _ _).2.1
  refine Suite.startable_of_nulFree ⟨nulFree, ?_, ?_⟩ (by simp) .lock
  · exact workingDir_eq ▸ nulFreeSlot false
  · exact cacheDir_eq ▸ nulFreeSlot true

/-- A binary that is given is taken as it is, and every command of its suite,
as a line and when it is started directly, runs the file that the path names
from the directory that it is read from. -/
theorem given_binary_read_from
    (isGiven : text ∈ task.given config tool)
    (slash : '/' ∈ text.toList)
    (nulFree : Shell.NulFree text)
    {sessionDir : Path}
    (nulFreeDir : Shell.NulFree sessionDir.text)
    {tools : List (Tool × List Path)}
    (found : (tool, (task.given config tool).map Path.mk) ∈ tools)
    (journal : Journal)
    (project : ProjectOptions) :
    task.findBinaries journal config tool =
        pure ((task.given config tool).map Path.mk) ∧
      (∃ suite ∈ planSuites project sessionDir tools,
        suite.tool = tool ∧ suite.context.binary = ⟨text⟩) ∧
      ∀ suite ∈ planSuites project sessionDir tools,
        suite.context.binary = ⟨text⟩ ->
        ∀ command, suite.Makes command ->
          ∃ launches, launches ≠ [] ∧
            Shell.launches? command.shellLine = some launches ∧
            command.launch?.bind Launch.comesTo? = some launches ∧
            ∀ launch ∈ launches, ∀ machine location,
              machine.Executes launch location ↔
                ∃ dir, suite.ReadsFrom machine dir ∧
                  machine.NamesProgram dir ⟨text⟩ location := by
  refine ⟨findBinaries_of_given isGiven journal, ?_, ?_⟩
  · have inOrder : (tool, Path.mk text) ∈
        (planSuites project sessionDir tools).map
          fun suite => (suite.tool, suite.context.binary) := by
      rw [planSuites_in_order, List.mem_flatMap]
      exact ⟨_, found, List.mem_map_of_mem (List.mem_map_of_mem isGiven)⟩
    obtain ⟨suite, planned, same⟩ := List.mem_map.mp inOrder
    obtain ⟨tool_eq, binary_eq⟩ := Prod.mk.inj same
    exact ⟨suite, planned, tool_eq, binary_eq⟩
  · intro suite planned binary_eq command makes
    have startable := startable_of_mem_planSuites nulFreeDir planned
      (by simpa only [binary_eq] using nulFree)
    obtain ⟨step, onLine, direct⟩ := Suite.launches_of_makes startable makes
    refine ⟨suite.launches step, suite.launches_ne_nil step, onLine, direct,
      ?_⟩
    intro launch present machine location
    obtain ⟨other, rfl⟩ :=
      suite.exists_step_of_mem_launches step launch present
    rw [← binary_eq]
    exact Suite.executes_launch_iff startable
      (by simpa only [binary_eq] using slash) other

/-- Where the tool is told its directory by an argument, both processes of an
installation run the file that a relative path names from the start. -/
theorem given_binary_read_from_start :
    let task : RunTask := { fixture := "trio" }
    let config : Config := { tools := { uv := ["bin/uv", "/opt/uv"] } }
    let tools : List (Tool × List Path) :=
      [(.uv, [⟨"bin/uv"⟩, ⟨"/opt/uv"⟩])]
    "bin/uv" ∈ task.given config .uv ∧ '/' ∈ "bin/uv".toList ∧
      Shell.NulFree "bin/uv" ∧ Shell.NulFree (Path.mk "/s").text ∧
      (.uv, (task.given config .uv).map Path.mk) ∈ tools ∧
      ∃ suite ∈ planSuites {} ⟨"/s"⟩ tools, ∃ command first second,
        suite.command? .installWarm = some command ∧
        Shell.launches? command.shellLine = some [first, second] ∧
        command.launch?.bind Launch.comesTo? = some [first, second] ∧
        ∀ launch ∈ [first, second], ∀ (machine : Machine) location,
          machine.Executes launch location ↔
            machine.NamesProgram machine.workingDir ⟨"bin/uv"⟩ location := by
  intro task config tools
  have isGiven : "bin/uv" ∈ task.given config .uv := by decide
  have slash : '/' ∈ "bin/uv".toList := by decide
  have nulFree : Shell.NulFree "bin/uv" := by decide
  have nulFreeDir : Shell.NulFree (Path.mk "/s").text := by decide
  have found : (.uv, (task.given config .uv).map Path.mk) ∈ tools := by decide
  refine ⟨isGiven, slash, nulFree, nulFreeDir, found, ?_⟩
  obtain ⟨-, -, runs⟩ :=
    given_binary_read_from isGiven slash nulFree nulFreeDir found {} {}
  let suite : Suite :=
    { tool := .uv
      context := Session.planContext .uv ⟨"/s"⟩ 2 0 ⟨"bin/uv"⟩ }
  have planned : suite ∈ planSuites {} ⟨"/s"⟩ tools := by decide
  obtain ⟨command, supported⟩ :
      ∃ command, suite.command? .installWarm = some command := ⟨_, rfl⟩
  obtain ⟨launches, -, onLine, direct, runsIt⟩ :=
    runs suite planned rfl command (.inr ⟨_, supported⟩)
  have startable := startable_of_mem_planSuites nulFreeDir planned nulFree
  have started := Suite.launches?_shellLine startable supported
  obtain rfl : [suite.launch .lock, suite.launch .sync] = launches :=
    Option.some.inj (started.symm.trans onLine)
  refine ⟨suite, planned, command, _, _, supported, onLine, direct, ?_⟩
  intro launch present machine location
  rw [runsIt launch present machine location]
  exact exists_eq_left

end Given

/-! ## A run on a machine with relative paths -/

namespace Nearby

/-- A machine with programs below the directory that it works in. -/
def machine : Machine where
  tree := ⟨[(["Pipfile"], .file .empty false),
    (["bin"], .directory),
    (["bin", "hyperfine"], .file .empty true),
    (["tmp"], .directory),
    (["work"], .directory),
    (["work", "bin"], .directory),
    (["work", "bin", "ripenv"], .file .empty true),
    (["work", "bin", "uv"], .file .empty true)]⟩
  workingDir := ["work"]
  environment := []
  behavior := fun _ => some fun _ _ tree => (⟨.code 0, .empty, .empty⟩, tree)
  time := ""
  freshNames := ["0"]

/-- A run with relative paths to the binaries of the tools. -/
def task (tools : ToolSwitches) : RunTask where
  fixture := "/Pipfile"
  tools := tools
  paths := { ripenv := ["bin/ripenv"], uv := ["bin/uv"] }
  operations := [.lockNoop]
  hyperfine := some ⟨"/bin/hyperfine"⟩

/-- The run on the machine. -/
def ended (tools : ToolSwitches) : Except Failure Summary × Machine :=
  ((task tools).perform {} {} 0).run.runOn machine

end Nearby

/-- Where a tool runs in the working directory of its suite, the program that
a relative path names from the start is not the one that is run: the session
ends before any process.  The other tool is run by such a path. -/
theorem given_binary_not_read_from_start :
    Nearby.machine.NamesProgram Nearby.machine.workingDir ⟨"bin/ripenv"⟩
        ["work", "bin", "ripenv"] ∧
      (Nearby.ended { ripenv := true }).1 = .error (.io .noSuchFile) ∧
      (Nearby.ended { ripenv := true }).2.calls = [] ∧
      (Nearby.ended { uv := true }).1.isOk = true ∧
      (Nearby.ended { uv := true }).2.calls.map Call.program =
        [⟨"bin/uv"⟩, ⟨"/bin/hyperfine"⟩] := by
  have names : Nearby.machine.NamesProgram Nearby.machine.workingDir
      ⟨"bin/ripenv"⟩ ["work", "bin", "ripenv"] :=
    ⟨_, _, (FileTree.find_eq_ok_iff _ _ _ _ _).mp rfl, rfl⟩
  exact ⟨names, by decide +kernel, by decide +kernel, by decide +kernel,
    by decide +kernel⟩

end RunTask
end LockBench
