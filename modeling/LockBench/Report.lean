import LockBench.Decimal
import LockBench.Host.Action
import LockBench.Json.Number
import LockBench.Json.Reader
import LockBench.Style
import LockBench.Text.Blank
import LockBench.Tool

/-!
# Reports of exported timings

The timings of an operation are the entries of one exported document.  A
report shows a table for every operation: the commands, their timings, and a
bar for each that is longest for the slowest command of all.
-/

namespace LockBench

/-- The timing of one command. -/
structure Timing where
  /-- The command's name. -/
  command : String
  /-- Its mean time, in seconds. -/
  mean : Float
  /-- The standard deviation of its times, if it is known. -/
  deviation : Option Float
  deriving Inhabited

/-- The timings of one operation. -/
structure TimingTable where
  /-- The operation's name. -/
  operation : String
  /-- The timings of its commands. -/
  entries : List Timing

/-! ## Exported documents -/

namespace Timing

/-- A text that is a sequence of characters. -/
def readText? : Json.Value -> Option String
  | .text value => value
  | _ => none

/-- A number that some double is close to. -/
def readNumber? : Json.Value -> Option Float
  | .number numeral => numeral.toFloat?
  | _ => none

/-- A number that may be missing. -/
def readOptional? : Option Json.Value -> Option (Option Float)
  | none => some none
  | some .null => some none
  | some value => (readNumber? value).map some

/-- The value of a field that may be given at most once: `none` where it is
given again. -/
def field?
    (name : String)
    (entries : List (Option String × Json.Value)) :
    Option (Option Json.Value) :=
  match entries.filter (·.1 = some name) with
  | [] => some none
  | [entry] => some (some entry.2)
  | _ => none

/-- Whether all keys of an object are sequences of characters. -/
def keysReadable (entries : List (Option String × Json.Value)) : Bool :=
  entries.all (·.1.isSome)

/-- A timing by its parts. -/
def ofParts?
    (command mean : Json.Value)
    (deviation : Option Json.Value) : Option Timing := do
  return {
    command := ← readText? command
    mean := ← readNumber? mean
    deviation := ← readOptional? deviation }

/-- A timing, by the names of its fields or by their order. -/
def ofValue? : Json.Value -> Option Timing
  | .array [command, mean] => ofParts? command mean none
  | .array [command, mean, deviation] => ofParts? command mean (some deviation)
  | .object entries => do
    if !keysReadable entries then none
    else
      let command ← (← field? "command" entries)
      let mean ← (← field? "mean" entries)
      ofParts? command mean (← field? "stddev" entries)
  | _ => none

/-- The timings of a list. -/
def listOfValue? : Json.Value -> Option (List Timing)
  | .array items => items.mapM ofValue?
  | _ => none

/-- The timings of an exported document. -/
def ofDocument? : Json.Value -> Option (List Timing)
  | .array [results] => listOfValue? results
  | .object entries => do
    if !keysReadable entries then none
    else listOfValue? (← (← field? "results" entries))
  | _ => none

/-- The timings that a text holds, or `none` where it holds none. -/
def ofText? (text : String) : Option (List Timing) :=
  (Json.Value.ofText? text).bind ofDocument?

end Timing

namespace Report

/-- Why there is no report.  Paths are as they are shown. -/
inductive Failure
  | read (path : Path) (cause : OsError)
  /-- The file holds no timings. -/
  | unreadable (path : Path)
  | noResults (dir : Path)
  deriving DecidableEq, Repr

/-- The text under which a failure is reported.  What the reader of a document
says of one that holds no timings is left out: fixed words stand for it. -/
def Failure.message : Failure -> String
  | .read path cause =>
    "Failed to read " ++ path.text ++ ": " ++ cause.message
  | .unreadable path =>
    "Failed to parse " ++ path.text ++ ": not a valid export"
  | .noResults dir => "No JSON result files found in " ++ dir.text

/-- The timings that a file holds, at the path of an entry. -/
def readExportAt
    (path : EntryPath) : Action (Except Failure (List Timing)) := do
  match ← Action.readTextAt path with
  | .error cause => return .error (.read path.shown cause)
  | .ok text =>
    match Timing.ofText? text with
    | none => return .error (.unreadable path.shown)
    | some entries => return .ok entries

/-- The timings that a file holds. -/
def readExport (path : Path) : Action (Except Failure (List Timing)) :=
  readExportAt (.text path)

/-- The extension of files of timings. -/
def extension : String := "json"

/-- Whether an entry has the extension of files of timings. -/
def hasExtension
    (dir : Path) : EntryName -> Bool
  | .text name => (dir.join name).extension? = some extension
  | .raw name => name.extension? = some (Text.bytes extension)

/-- The operation that a file of timings is for, by its name. -/
def operationName
    (dir : Path) : EntryName -> String
  | .text name => (dir.join name).stem?.getD ""
  | .raw name => name.stem

/-- Whether an entry is a regular file of timings, by its extension. -/
def isExport
    (dir : Path)
    (name : EntryName) : Action Bool := do
  return (← Action.isFileAt (dir.entry name)) ∧ hasExtension dir name

/-- The names of a directory's entries that are files of timings. -/
def exportNames
    (dir : Path) : List EntryName -> Action (List EntryName)
  | [] => return []
  | name :: rest => do
    let chosen ← isExport dir name
    let others ← exportNames dir rest
    return if chosen then name :: others else others

/-- The tables of some files of a directory, in order. -/
def readTables
    (dir : Path) :
    List EntryName -> Action (Except Failure (List TimingTable))
  | [] => return .ok []
  | name :: rest => do
    match ← readExportAt (dir.entry name) with
    | .error failure => return .error failure
    | .ok entries =>
      match ← readTables dir rest with
      | .error failure => return .error failure
      | .ok tables =>
        return .ok (⟨operationName dir name, entries⟩ :: tables)

/-- The tables of a directory, in order of the names of its files. -/
def load (dir : Path) : Action (Except Failure (List TimingTable)) := do
  match ← Action.entries dir with
  | .error cause => return .error (.read dir cause)
  | .ok names =>
    match (← exportNames dir names).mergeSort (· ≤ ·) with
    | [] => return .error (.noResults dir)
    | sorted => readTables dir sorted

/-! ## Tables -/

/-- The families of commands that a report tells apart. -/
inductive Family
  | tool (tool : Tool)
  | other
  deriving DecidableEq, Repr

namespace Family

/-- The family of a command, by the first word of its name. -/
def of (command : String) : Family :=
  match Tool.ofName? (Text.firstWord command) with
  | some known => .tool known
  | none => .other

/-- The ink of a family's bars. -/
def ink : Family -> Ink
  | .tool .ripenv => .blue
  | .tool .pipenv => .yellow
  | .tool .uv => .green
  | .other => .white

end Family

/-- The larger of two doubles; what is not a number does not count. -/
def larger (left right : Float) : Float :=
  if left.isNaN then right
  else if right.isNaN then left
  else if left < right then right
  else left

/-- The mean of the slowest command, at least zero. -/
def slowest (tables : List TimingTable) : Float :=
  (tables.flatMap fun table => table.entries.map Timing.mean).foldl larger 0

/-- The length of a column that holds every command's name, in bytes. -/
def nameWidth (tables : List TimingTable) : Nat :=
  (tables.flatMap fun table =>
    table.entries.map fun entry => entry.command.utf8ByteSize).foldl max 0

/-- The length of the longest bar. -/
def barLimit : Float := 40

/-- The length of a command's bar, at least one. -/
def barLength
    (slowest mean : Float) : Nat :=
  if 0 < slowest then
    max 1 (mean / slowest * barLimit).round.toUInt64.toNat
  else 1

/-- A text padded with spaces on the right to a number of characters. -/
def padRight
    (width : Nat)
    (text : String) : String :=
  text ++ String.ofList (List.replicate (width - text.length) ' ')

/-- A timing as text. -/
def timingText (entry : Timing) : String :=
  Decimal.padLeft 8 (Decimal.fixed 3 entry.mean) ++ " s" ++
    match entry.deviation with
    | none => ""
    | some deviation => " ± " ++ Decimal.fixed 3 deviation ++ " s"

/-- A bar of some length in the ink of a family. -/
def bar
    (colored : Bool)
    (family : Family)
    (length : Nat) : String :=
  (Style.mk false (some family.ink)).paint colored
    (String.ofList (List.replicate length '█'))

/-- The row of a command. -/
def row
    (colored : Bool)
    (width : Nat)
    (slowest : Float)
    (entry : Timing) : String :=
  "  " ++ padRight width entry.command ++ "  " ++ timingText entry ++ "  " ++
    bar colored (.of entry.command) (barLength slowest entry.mean) ++ "\n"

/-- The table of an operation: its name, a row for every command, and an
empty line. -/
def tableText
    (colored : Bool)
    (width : Nat)
    (slowest : Float)
    (table : TimingTable) : String :=
  Style.emphasis.paint colored table.operation ++ "\n" ++
    String.join (table.entries.map (row colored width slowest)) ++ "\n"

/-- The report of some tables. -/
def render
    (colored : Bool)
    (tables : List TimingTable) : String :=
  String.join (tables.map
    (tableText colored (nameWidth tables) (slowest tables)))

end Report
end LockBench
