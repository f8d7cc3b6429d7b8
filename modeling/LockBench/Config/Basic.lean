import LockBench.Text.Blank
import LockBench.Tool

/-!
# Configuration

A configuration holds the defaults of benchmark sessions, each of which may be
unset.  Single values are read and changed under their keys; the lists of
binaries are not.
-/

namespace LockBench

/-- Binaries of the tools, by path. -/
structure ToolPaths where
  /-- Binaries of ripenv. -/
  ripenv : List String := []
  /-- Binaries of pipenv. -/
  pipenv : List String := []
  /-- Binaries of uv. -/
  uv : List String := []
  deriving DecidableEq, Repr, Inhabited

/-- Whether no tool has a binary. -/
def ToolPaths.isEmpty (paths : ToolPaths) : Bool :=
  paths.ripenv.isEmpty && paths.pipenv.isEmpty && paths.uv.isEmpty

/-- The binaries of a tool. -/
def ToolPaths.of (paths : ToolPaths) : Tool -> List String
  | .ripenv => paths.ripenv
  | .pipenv => paths.pipenv
  | .uv => paths.uv

/-- The defaults of benchmark sessions. -/
structure Config where
  /-- The number of runs that are not timed. -/
  warmup : Option UInt32 := none
  /-- The least number of timed runs. -/
  minRuns : Option UInt32 := none
  /-- The exact number of timed runs. -/
  runs : Option UInt32 := none
  /-- The directory of exported timings. -/
  resultsDir : Option String := none
  /-- The directory of fixtures. -/
  fixturesDir : Option String := none
  /-- The timing program. -/
  hyperfinePath : Option String := none
  /-- The interpreter versions that generated projects accept. -/
  requiresPython : Option String := none
  /-- The name of generated projects. -/
  projectName : Option String := none
  /-- The binaries of the tools. -/
  tools : ToolPaths := {}
  deriving DecidableEq, Repr, Inhabited

namespace Config

/-- The values of a configuration that have a key. -/
inductive Key
  | warmup
  | minRuns
  | runs
  | resultsDir
  | fixturesDir
  | hyperfinePath
  | requiresPython
  | projectName
  deriving DecidableEq, Repr

namespace Key

/-- Every key, in the order in which values are listed. -/
def all : List Key :=
  [.warmup, .minRuns, .runs, .resultsDir, .fixturesDir, .hyperfinePath,
    .requiresPython, .projectName]

theorem mem_all (key : Key) : key ∈ all := by
  cases key <;> decide

/-- The name of a key. -/
def name : Key -> String
  | .warmup => "warmup"
  | .minRuns => "min-runs"
  | .runs => "runs"
  | .resultsDir => "results-dir"
  | .fixturesDir => "fixtures-dir"
  | .hyperfinePath => "hyperfine-path"
  | .requiresPython => "requires-python"
  | .projectName => "project-name"

/-- The key of a name. -/
def ofName? (text : String) : Option Key :=
  all.find? fun key => key.name = text

end Key

/-- Why a value could not be set. -/
inductive Refusal
  | unknownKey (key : String)
  | invalidValue (key value : String)
  deriving DecidableEq, Repr

/-- The text under which a refusal is reported. -/
def Refusal.message : Refusal -> String
  | .unknownKey key => "Unknown config key: " ++ key
  | .invalidValue key value =>
    "Invalid value for " ++ key ++ ": " ++ value

/-! ## Counts -/

/-- The value of decimal digits, at least one of them. -/
def natural? (digits : List Char) : Option Nat :=
  if digits.isEmpty ∨ digits.any (fun c => !c.isDigit) then none
  else some (digits.foldl (fun value c => value * 10 + (c.toNat - 48)) 0)

/-- A number that fits a count. -/
def count? (value : Nat) : Option UInt32 :=
  if value < UInt32.size then some value.toUInt32 else none

/-- A count from its text: blanks at either end, a plus sign if there is one,
and decimal digits. -/
def countOfText? (text : String) : Option UInt32 :=
  match Text.trimBlank text.toList with
  | '+' :: digits => (natural? digits).bind count?
  | digits => (natural? digits).bind count?

/-! ## Values by key -/

/-- The value of a key, as text. -/
def get
    (config : Config) : Key -> Option String
  | .warmup => config.warmup.map toString
  | .minRuns => config.minRuns.map toString
  | .runs => config.runs.map toString
  | .resultsDir => config.resultsDir
  | .fixturesDir => config.fixturesDir
  | .hyperfinePath => config.hyperfinePath
  | .requiresPython => config.requiresPython
  | .projectName => config.projectName

/-- A configuration with the value of a key set from a text, or `none` where
the key needs a count and the text is none. -/
def set?
    (config : Config)
    (value : String) : Key -> Option Config
  | .warmup =>
    (countOfText? value).map fun count => { config with warmup := some count }
  | .minRuns =>
    (countOfText? value).map fun count => { config with minRuns := some count }
  | .runs =>
    (countOfText? value).map fun count => { config with runs := some count }
  | .resultsDir => some { config with resultsDir := some value }
  | .fixturesDir => some { config with fixturesDir := some value }
  | .hyperfinePath => some { config with hyperfinePath := some value }
  | .requiresPython => some { config with requiresPython := some value }
  | .projectName => some { config with projectName := some value }

/-- The value under a name, as text. -/
def lookup
    (config : Config)
    (name : String) : Option String :=
  (Key.ofName? name).bind config.get

/-- A configuration with the value under a name set from a text. -/
def update
    (config : Config)
    (name value : String) : Except Refusal Config :=
  match Key.ofName? name with
  | none => .error (.unknownKey name)
  | some key =>
    match config.set? value key with
    | none => .error (.invalidValue name value)
    | some changed => .ok changed

/-- Whether nothing is set. -/
def isEmpty (config : Config) : Bool :=
  Key.all.all (fun key => (config.get key).isNone) && config.tools.isEmpty

/-- A list of binaries under its name, unless it is empty. -/
def listed
    (name : String)
    (paths : List String) : List (String × String) :=
  if paths.isEmpty then [] else [(name, ", ".intercalate paths)]

/-- Everything that is set, under its name and as text. -/
def values (config : Config) : List (String × String) :=
  (Key.all.filterMap fun key =>
    (config.get key).map fun value => (key.name, value)) ++
    listed "tools.ripenv" config.tools.ripenv ++
    listed "tools.pipenv" config.tools.pipenv ++
    listed "tools.uv" config.tools.uv

/-! ## Defaults -/

/-- The number of runs that are not timed. -/
def warmupOrDefault (config : Config) : Nat :=
  (config.warmup.map UInt32.toNat).getD 3

/-- The least number of timed runs. -/
def minRunsOrDefault (config : Config) : Nat :=
  (config.minRuns.map UInt32.toNat).getD 10

/-- The interpreter versions that generated projects accept. -/
def requiresPythonOrDefault (config : Config) : String :=
  config.requiresPython.getD ">=3.12"

/-- The name of generated projects. -/
def projectNameOrDefault (config : Config) : String :=
  config.projectName.getD "bench-fixture"

end Config
end LockBench
