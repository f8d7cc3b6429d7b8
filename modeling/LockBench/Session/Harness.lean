import LockBench.Session.Group

/-!
# Arguments of the timing program

The program takes its counts first, then one preparation for every command or
none at all, one name for every command, and last the commands themselves.  A
command without preparation in a group where others have one gets one that
does nothing, since preparations are matched with commands by position.
-/

namespace LockBench

/-- How many timed runs are asked for. -/
inductive RunCount
  | atLeast (count : Nat)
  | exactly (count : Nat)
  deriving DecidableEq, Repr

/-- The options of a timing run. -/
structure HarnessOptions where
  /-- The number of runs that are not timed. -/
  warmup : Nat
  /-- The number of runs that are timed. -/
  runs : RunCount
  /-- Whether the commands may write to the console. -/
  showOutput : Bool
  /-- Where the timings are written, if anywhere. -/
  exportDir : Option Path
  deriving DecidableEq, Repr

/-- A timing program with its options. -/
structure Harness where
  /-- The program's binary. -/
  binary : Path
  /-- The options of its runs. -/
  options : HarnessOptions
  deriving DecidableEq, Repr

namespace Harness

/-- The file that the timings of an operation are written to. -/
def exportPath?
    (harness : Harness)
    (operation : Operation) : Option Path :=
  harness.options.exportDir.map fun dir => dir.join (operation.name ++ ".json")

/-- A preparation that does nothing. -/
def idle : String := "true"

/-- The option for the number of timed runs. -/
def runArguments : RunCount -> List String
  | .atLeast count => ["--min-runs", toString count]
  | .exactly count => ["--runs", toString count]

/-- The options of a run that do not depend on the single commands. -/
def optionArguments
    (harness : Harness)
    (operation : Operation) : List String :=
  ["--warmup", toString harness.options.warmup] ++
    runArguments harness.options.runs ++
    (if harness.options.showOutput then ["--show-output"] else []) ++
    (match harness.exportPath? operation with
      | none => []
      | some path => ["--export-json", path.text])

/-- The preparations of a group, one for every command or none at all. -/
def prepareArguments (group : Group) : List String :=
  if group.anyPrepare then
    group.commands.flatMap fun command =>
      ["--prepare", command.prepare.getD idle]
  else []

/-- The names of a group's commands. -/
def nameArguments (group : Group) : List String :=
  group.commands.flatMap fun command => ["--command-name", command.name]

/-- The arguments that time a group. -/
def arguments
    (harness : Harness)
    (group : Group) : List String :=
  harness.optionArguments group.operation ++ prepareArguments group ++
    nameArguments group ++ group.commands.map Command.shellLine

/-- The process that times a group. -/
def launch
    (harness : Harness)
    (group : Group) : Launch :=
  ⟨harness.binary.text, harness.arguments group, [], none⟩

end Harness
end LockBench
