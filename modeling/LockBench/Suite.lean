import LockBench.Command
import LockBench.Manifest.Project
import LockBench.Operation
import LockBench.Tool

/-!
# Suites

A suite binds a tool to a binary and to the directories it works in, and
gives the command of every operation that the tool supports.  Each tool is
told about its directories in its own way: by variables and the working
directory, or by arguments.
-/

namespace LockBench

/-- What a suite is bound to for a whole session. -/
structure Context where
  /-- The tool's binary. -/
  binary : Path
  /-- What tells this binary from others of the same tool. -/
  label : String
  /-- The directory of the project. -/
  workingDir : Path
  /-- The directory of the cache. -/
  cacheDir : Path
  deriving DecidableEq, Repr, Inhabited

/-- The artifacts that a preparation may clear. -/
structure StateLayout where
  /-- The lockfile. -/
  lockfile : Path
  /-- The virtual environment. -/
  venv : Path
  /-- The cache. -/
  cacheDir : Path
  deriving DecidableEq, Repr

namespace StateLayout

/-- Name of a project's virtual environment. -/
def venvName : String := ".venv"

/-- The artifacts of a tool in a context. -/
def of
    (tool : Tool)
    (context : Context) : StateLayout where
  lockfile := context.workingDir.join tool.lockfileName
  venv := context.workingDir.join venvName
  cacheDir := context.cacheDir

/-- The shell line that removes a file. -/
def removeFile (path : Path) : String :=
  "rm -f " ++ Shell.quote path.text

/-- The shell line that removes a directory. -/
def removeDir (path : Path) : String :=
  "rm -rf " ++ Shell.quote path.text

/-- The steps that clear what an operation must not find. -/
def clearing
    (layout : StateLayout)
    (operation : Operation) : List String :=
  (if operation.clearsLockfile then [removeFile layout.lockfile] else []) ++
    (if operation.clearsVenv then [removeDir layout.venv] else []) ++
    (if operation.clearsCache then [removeDir layout.cacheDir] else [])

/-- The preparation before a run of an operation; none where everything must
be kept. -/
def prepare?
    (layout : StateLayout)
    (operation : Operation) : Option String :=
  match layout.clearing operation with
  | [] => none
  | steps => some (" && ".intercalate steps)

end StateLayout

/-- The operations that a tool supports, in the order in which it lists
them. -/
def Tool.operations : Tool -> List Operation
  | .ripenv => Operation.defaults
  | .pipenv => Operation.defaults
  | .uv => Operation.all

/-- A tool bound to a context. -/
structure Suite where
  /-- The tool. -/
  tool : Tool
  /-- What it is bound to. -/
  context : Context
  /-- What its project file says, where the tool needs one. -/
  project : ProjectOptions := {}
  /-- A manifest outside of the working directory, if there is one. -/
  manifest : Option Path := none
  deriving DecidableEq, Repr

namespace Suite

/-- Name of a manifest in its directory. -/
def manifestName : String := "Pipfile"

/-- The manifest that the tool reads. -/
def manifestPath (suite : Suite) : Path :=
  suite.manifest.getD (suite.context.workingDir.join manifestName)

/-- The label of the suite's context. -/
def label (suite : Suite) : String :=
  suite.context.label

/-- The name under which the suite is listed. -/
def displayName (suite : Suite) : String :=
  suite.tool.name ++ " (" ++ suite.label ++ ")"

/-- The name of the suite's command for an operation. -/
def commandName
    (suite : Suite)
    (operation : Operation) : String :=
  suite.tool.name ++ " " ++ operation.name ++ " (" ++ suite.label ++ ")"

/-- The artifacts that the suite's preparations clear. -/
def layout (suite : Suite) : StateLayout :=
  .of suite.tool suite.context

/-- The operations that the suite supports. -/
def operations (suite : Suite) : List Operation :=
  suite.tool.operations

/-- The words that run one step of the tool. -/
def words
    (suite : Suite)
    (step : Step) : List String :=
  match suite.tool with
  | .uv =>
    [suite.context.binary.text, step.name,
      "--cache-dir", suite.context.cacheDir.text,
      "--directory", suite.context.workingDir.text]
  | _ => [suite.context.binary.text, step.name]

/-- The variables that the tool runs with, in order of their names. -/
def environment (suite : Suite) : List (String × String) :=
  match suite.tool with
  | .ripenv =>
    [("PIPENV_PIPFILE", suite.manifestPath.text),
     ("UV_CACHE_DIR", suite.context.cacheDir.text)]
  | .pipenv =>
    [("PIPENV_CACHE_DIR", suite.context.cacheDir.text),
     ("PIPENV_VENV_IN_PROJECT", "1"),
     ("PIPENV_YES", "1"),
     ("WORKON_HOME", suite.context.workingDir.text)]
  | .uv => []

/-- The directory that the tool runs in, where it is not told by an
argument. -/
def directory (suite : Suite) : Option Path :=
  match suite.tool with
  | .uv => none
  | _ => some suite.context.workingDir

/-- What runs a step.  One tool installs by locking and then syncing. -/
def invocation
    (suite : Suite)
    (step : Step) : Invocation :=
  match suite.tool, step with
  | .uv, .install =>
    .expression (Shell.join (suite.words .lock) ++ " && " ++
      Shell.join (suite.words .sync))
  | _, step => .words (suite.words step)

/-- The command of an operation, or `none` where the tool has nothing like
it. -/
def command?
    (suite : Suite)
    (operation : Operation) : Option Command :=
  if operation ∈ suite.operations then
    some
      { name := suite.commandName operation
        prepare := suite.layout.prepare? operation
        environment := suite.environment
        workingDir := suite.directory
        invocation := suite.invocation operation.step }
  else none

/-- The initial lock, from which later runs start. -/
def seedCommand (suite : Suite) : Command where
  name := suite.tool.name ++ " seed (" ++ suite.label ++ ")"
  environment := suite.environment
  workingDir := suite.directory
  invocation := suite.invocation .lock

theorem command?_isSome_iff
    (suite : Suite)
    (operation : Operation) :
    (suite.command? operation).isSome = true ↔
      operation ∈ suite.operations := by
  unfold command?
  split <;> simp_all

end Suite
end LockBench
