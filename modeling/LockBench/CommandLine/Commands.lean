import LockBench.CommandLine.Gather
import LockBench.CommandLine.Synopsis
import LockBench.CommandLine.Value
import LockBench.Task.Configure
import LockBench.Task.Run

/-!
# The commands of the program

Every command has a form that gathers the task it stands for, and a page that
describes it.  Flags for the loudness of the program belong to every command.
-/

namespace LockBench
namespace CommandLine

/-- How much the user wants to be told. -/
structure Loudness where
  /-- Whether only warnings and errors are wanted. -/
  quiet : Bool := false
  /-- How often more was asked for. -/
  verbose : Nat := 0
  deriving DecidableEq, Repr

namespace Loudness

/-- The verbosity.  Quiet outranks all that was asked for. -/
def level (loudness : Loudness) : Nat :=
  if loudness.quiet then 0 else loudness.verbose

/-- The loudness of a command and of the subcommand that was given to it.  The
subcommand decides how often more was asked for, if more was asked for
there. -/
def within (outer inner : Loudness) : Loudness where
  quiet := outer.quiet || inner.quiet
  verbose := if inner.verbose = 0 then outer.verbose else inner.verbose

end Loudness

/-- What is gathered for a command. -/
structure Draft (τ : Type) where
  /-- How much the user wants to be told. -/
  loudness : Loudness := {}
  /-- What the command is to do. -/
  task : τ

namespace Draft

/-- A draft with its task changed. -/
def change
    (set : τ -> τ)
    (draft : Draft τ) : Draft τ :=
  { draft with task := set draft.task }

/-- Read a value, and change the task of a draft with it. -/
def reader
    (read : String -> Except ValueError α)
    (set : α -> τ -> τ) : Reader (Draft τ) :=
  fun text => (read text).map fun value => change (set value)

end Draft

/-! ## Flags and operands -/

/-- Any text. -/
def readText (text : String) : Except ValueError String :=
  .ok text

/-- The flag that asks for warnings and errors only. -/
def quiet : Flag (Draft τ) where
  letter := some 'q'
  name := "quiet"
  effect := .toggle fun draft =>
    { draft with loudness := { draft.loudness with quiet := true } }
  summary := "Only show warnings and errors"

/-- The flag that asks for more. -/
def verbose : Flag (Draft τ) where
  letter := some 'v'
  name := "verbose"
  effect := .toggle fun draft =>
    { draft with
      loudness :=
        { draft.loudness with verbose := draft.loudness.verbose + 1 } }
  repeatable := true
  summary :=
    "Increase verbosity (-v for debug and command output, -vv for trace)"

/-- The flag that asks for help. -/
def help : Flag (Draft τ) where
  letter := some 'h'
  name := "help"
  effect := .help
  summary := "Print help"

/-- A flag that changes the task. -/
def switch
    (name summary : String)
    (set : τ -> τ) : Flag (Draft τ) where
  name
  effect := .toggle (Draft.change set)
  summary

/-- A flag with a value that changes the task. -/
def valued
    (name placeholder summary : String)
    (read : String -> Except ValueError α)
    (set : α -> τ -> τ) : Flag (Draft τ) where
  name
  effect := .value placeholder (Draft.reader read set)
  summary

/-- A flag with a value that may be given again. -/
def listed
    (name placeholder summary : String)
    (read : String -> Except ValueError α)
    (set : α -> τ -> τ) : Flag (Draft τ) :=
  { valued name placeholder summary read set with repeatable := true }

/-- An operand that must be given. -/
def needed
    (placeholder summary : String)
    (read : String -> Except ValueError α)
    (set : α -> τ -> τ) : Operand (Draft τ) where
  placeholder
  reader := Draft.reader read set
  summary

/-! ## Forms -/

/-- The subcommands of the program. -/
inductive ProgramCommand
  | run
  | translate
  | report
  | config
  | help
  deriving DecidableEq, Repr

/-- The subcommands of the configuration. -/
inductive ConfigCommand
  | showAll
  | showPath
  | get
  | set
  | help
  deriving DecidableEq, Repr

/-- Every subcommand of the program by its name. -/
def programCommands : List (String × ProgramCommand) :=
  [("run", .run), ("translate", .translate), ("report", .report),
    ("config", .config), ("help", .help)]

/-- Every subcommand of the configuration by its name. -/
def configCommands : List (String × ConfigCommand) :=
  [("show", .showAll), ("path", .showPath), ("get", .get), ("set", .set),
    ("help", .help)]

/-- What the program takes before the name of a subcommand. -/
def programForm : Form ProgramCommand (Draft Unit) where
  flags :=
    [quiet, verbose,
      { help with
        summary := "Print help (see more with '--help')"
        details := some "Print help (see a summary with '-h')" },
      { letter := some 'V', name := "version", effect := .version,
        summary := "Print version" }]
  commands := programCommands

/-- A path to a binary of a tool. -/
def binary
    (name tool : String)
    (set : String -> ToolPaths -> ToolPaths) : Flag (Draft RunTask) :=
  listed name "PATH"
    ("Path to a " ++ tool ++ " binary (repeatable for comparison)")
    (fun text => (readPath text).map Path.text)
    fun path task => { task with paths := set path task.paths }

/-- What a run takes. -/
def runForm : Form Empty (Draft RunTask) where
  flags :=
    [quiet,
      switch "ripenv" "Benchmark ripenv" fun task =>
        { task with tools := { task.tools with ripenv := true } },
      switch "pipenv" "Benchmark pipenv" fun task =>
        { task with tools := { task.tools with pipenv := true } },
      verbose,
      switch "uv" "Benchmark uv" fun task =>
        { task with tools := { task.tools with uv := true } },
      binary "ripenv-path" "ripenv" fun path paths =>
        { paths with ripenv := paths.ripenv ++ [path] },
      binary "pipenv-path" "pipenv" fun path paths =>
        { paths with pipenv := paths.pipenv ++ [path] },
      binary "uv-path" "uv" fun path paths =>
        { paths with uv := paths.uv ++ [path] },
      { listed "benchmark" "NAME"
          "Benchmark(s) to run (repeatable, default: all but sync-noop)"
          readOperation fun operation (task : RunTask) =>
            { task with operations := task.operations ++ [operation] } with
        letter := some 'b' },
      valued "warmup" "WARMUP" "Warmup runs (default: 3)"
        readCount fun count task => { task with warmup := some count },
      valued "min-runs" "MIN_RUNS" "Minimum runs (default: 10)"
        readCount fun count task => { task with minRuns := some count },
      valued "runs" "RUNS" "Exact number of runs"
        readCount fun count task => { task with runs := some count },
      switch "json" "Export results to <results-dir>/<benchmark>.json"
        fun task => { task with json := true },
      valued "results-dir" "DIR" "Directory for JSON exports"
        readPath fun path task => { task with resultsDir := some path },
      valued "hyperfine" "PATH"
        "hyperfine binary to use instead of the one on PATH"
        readPath fun path task => { task with hyperfine := some path },
      valued "fixtures-dir" "DIR" "Directory holding fixture subdirectories"
        readPath fun path task => { task with fixturesDir := some path },
      help]
  operands :=
    [needed "FIXTURE"
      "Fixture name (trio, flask, jupyter) or path to a Pipfile"
      readText fun text task => { task with fixture := text }]
  exclusions := [("min-runs", "runs")]

/-- What translating a Pipfile takes. -/
def translateForm : Form Empty (Draft TranslateTask) where
  flags :=
    [{ valued "output" "FILE" "Write the pyproject.toml here instead of stdout"
          readPath fun path (task : TranslateTask) =>
            { task with output := some path } with
        letter := some 'o' },
      quiet,
      valued "name" "NAME" "Project name written into [project]"
        readText fun text task => { task with name := some text },
      verbose,
      valued "requires-python" "REQUIRES_PYTHON" "Value of requires-python"
        readText fun text task => { task with requiresPython := some text },
      help]
  operands :=
    [needed "PIPFILE" "Pipfile to translate"
      readPath fun path task => { task with pipfile := path }]

/-- What a report takes. -/
def reportForm : Form Empty (Draft ReportTask) where
  flags := [quiet, verbose, help]
  operands :=
    [{ needed "DIR"
          ("Directory holding hyperfine JSON exports (default: results-dir " ++
            "from config, else ./bench-results)")
          readPath fun path (task : ReportTask) =>
            { task with dir := some path } with
        required := false }]

/-- What the configuration takes before the name of a subcommand. -/
def configForm : Form ConfigCommand (Draft Unit) where
  flags := [quiet, verbose, help]
  commands := configCommands

/-- What a command takes that has no operands. -/
def plainForm : Form Empty (Draft Unit) where
  flags := [quiet, verbose, help]

/-- What is taken to look up a value: its key. -/
def getForm : Form Empty (Draft String) where
  flags := [quiet, verbose, help]
  operands := [needed "KEY" "" readText fun text _ => text]

/-- What is taken to set a value: its key, and the value as text. -/
def setForm : Form Empty (Draft (String × String)) where
  flags := [quiet, verbose, help]
  operands :=
    [needed "KEY" "" readText fun text task => (text, task.2),
      needed "VALUE" "" readText fun text task => (task.1, text)]

end CommandLine
end LockBench
