import LockBench.Config.Basic
import LockBench.Toml.Magnitude
import LockBench.Toml.Reader
import LockBench.Toml.Writer

/-!
# Configuration files

What is unset is not written, and what is not written is unset.  Keys that
mean nothing here are passed over, if only their numbers can be represented; a
value of the wrong kind is refused.
-/

namespace LockBench
namespace Config

/-! ## Writing -/

/-- A list of strings under a key, unless it is empty. -/
def listEntry
    (key : String)
    (items : List String) : List (String × Toml.Plain) :=
  if items.isEmpty then [] else [(key, .texts items)]

/-- A value under a key, if it is set. -/
def plainEntry
    (key : Key)
    (value : Option Toml.Plain) : List (String × Toml.Plain) :=
  (value.map fun plain => (key.name, plain)).toList

/-- The plain value of a key, if it is set. -/
def plain
    (config : Config) : Key -> Option Toml.Plain
  | .warmup => config.warmup.map fun count => .count count.toNat
  | .minRuns => config.minRuns.map fun count => .count count.toNat
  | .runs => config.runs.map fun count => .count count.toNat
  | .resultsDir => config.resultsDir.map .text
  | .fixturesDir => config.fixturesDir.map .text
  | .hyperfinePath => config.hyperfinePath.map .text
  | .requiresPython => config.requiresPython.map .text
  | .projectName => config.projectName.map .text

/-- The tables of a configuration file. -/
def tables (config : Config) : List Toml.PlainTable :=
  { name := none,
    entries := Key.all.flatMap fun key => plainEntry key (config.plain key) } ::
    if config.tools.isEmpty then []
    else
      [{ name := some "tools",
         entries :=
          listEntry "ripenv" config.tools.ripenv ++
            listEntry "pipenv" config.tools.pipenv ++
            listEntry "uv" config.tools.uv }]

/-- The text of a configuration file. -/
def toText (config : Config) : String :=
  Toml.writeDocument .pretty config.tables

/-! ## Reading -/

/-- The count of a key, which may be missing. -/
def readCount?
    (entries : Toml.Entries)
    (key : Key) : Option (Option UInt32) :=
  match Toml.find? key.name entries with
  | none => some none
  | some (.integer value) =>
    if 0 ≤ value then (count? value.toNat).map some else none
  | some _ => none

/-- The text of a key, which may be missing. -/
def readText?
    (entries : Toml.Entries)
    (key : Key) : Option (Option String) :=
  match Toml.find? key.name entries with
  | none => some none
  | some (.text value) => some (some value)
  | some _ => none

/-- A list of strings. -/
def strings? : Toml.Value -> Option (List String)
  | .array items =>
    items.mapM fun item =>
      match item with
      | .text value => some value
      | _ => none
  | _ => none

/-- A list of strings under a key, empty where the key is missing. -/
def readList?
    (entries : Toml.Entries)
    (key : String) : Option (List String) :=
  match Toml.find? key entries with
  | none => some []
  | some value => strings? value

/-- The list of strings at a place of an array, empty past its end. -/
def itemList?
    (items : List Toml.Value)
    (index : Nat) : Option (List String) :=
  match items[index]? with
  | none => some []
  | some value => strings? value

/-- The binaries of the tools: a table by names, or an array by places, of
which what follows the last place is not looked at.  A moment names no tool. -/
def readTools? (entries : Toml.Entries) : Option ToolPaths :=
  match Toml.find? "tools" entries with
  | none => some {}
  | some (.table _ inner) => do
    guard (Toml.entriesFit inner)
    return {
      ripenv := ← readList? inner "ripenv"
      pipenv := ← readList? inner "pipenv"
      uv := ← readList? inner "uv" }
  | some (.array items) => do
    return {
      ripenv := ← itemList? items 0
      pipenv := ← itemList? items 1
      uv := ← itemList? items 2 }
  | some (.moment _ _) => some {}
  | some _ => none

/-- The configuration that the entries of a document hold. -/
def ofEntries? (entries : Toml.Entries) : Option Config := do
  guard (Toml.entriesFit (entries.filter fun entry => entry.1 ≠ "tools"))
  return {
    warmup := ← readCount? entries .warmup
    minRuns := ← readCount? entries .minRuns
    runs := ← readCount? entries .runs
    resultsDir := ← readText? entries .resultsDir
    fixturesDir := ← readText? entries .fixturesDir
    hyperfinePath := ← readText? entries .hyperfinePath
    requiresPython := ← readText? entries .requiresPython
    projectName := ← readText? entries .projectName
    tools := ← readTools? entries }

/-- The configuration that a text holds, or `none` where it holds none. -/
def ofText? (text : String) : Option Config :=
  (Toml.read? text).bind ofEntries?

end Config
end LockBench
