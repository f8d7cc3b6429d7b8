import LockBench.Session.Harness
import Mathlib.Data.List.Flatten

/-!
# What the timing program reads

The timing program takes its arguments one after another.  An option that has
a value takes the argument after it, whatever that is; one option has none;
every other argument is a command.  Names, preparations and commands come in
three lists that only their positions keep together, and what is read of them
is what the group says of its commands, one by one.
-/

namespace LockBench
namespace Harness

/-! ## The grammar of the arguments -/

/-- What the options that have a value set. -/
inductive Setting
  | warmup
  | minRuns
  | runs
  | exportFile
  | prepare
  | commandName
  deriving DecidableEq, Repr

namespace Setting

/-- Everything that an option sets. -/
def all : List Setting :=
  [.warmup, .minRuns, .runs, .exportFile, .prepare, .commandName]

/-- The option that sets something. -/
def flag : Setting -> String
  | .warmup => "--warmup"
  | .minRuns => "--min-runs"
  | .runs => "--runs"
  | .exportFile => "--export-json"
  | .prepare => "--prepare"
  | .commandName => "--command-name"

/-- What an argument sets, if it is an option that has a value. -/
def ofFlag? (argument : String) : Option Setting :=
  all.find? fun setting => setting.flag = argument

end Setting

/-- The values of one setting among some, in order. -/
def valuesOf
    (setting : Setting)
    (entries : List (Setting × String)) : List String :=
  entries.filterMap fun entry =>
    if entry.1 = setting then some entry.2 else none

/-- The number that a text of digits is. -/
def number? (text : String) : Option Nat :=
  if text.toList ≠ [] ∧ text.toList.all Char.isDigit = true then
    some (Nat.ofDigitChars 10 text.toList 0)
  else none

/-- The option that lets the commands write to the console.  It has no
value. -/
def showFlag : String := "--show-output"

/-- What has been read of some arguments. -/
structure Reading where
  /-- What the next argument is the value of, if an option waits for one. -/
  pending : Option Setting := none
  /-- What is set, in order. -/
  settings : List (Setting × String) := []
  /-- Whether the commands may write to the console. -/
  showsOutput : Bool := false
  /-- The commands, in order. -/
  commands : List String := []
  deriving DecidableEq, Repr

namespace Reading

/-- Read one argument. -/
def step (reading : Reading) (argument : String) : Reading :=
  match reading.pending with
  | some setting =>
    { reading with
      pending := none
      settings := reading.settings ++ [(setting, argument)] }
  | none =>
    if argument = showFlag then { reading with showsOutput := true }
    else
      match Setting.ofFlag? argument with
      | some setting => { reading with pending := some setting }
      | none => { reading with commands := reading.commands ++ [argument] }

/-- Read some arguments. -/
def feed (reading : Reading) (arguments : List String) : Reading :=
  arguments.foldl step reading

/-- The values of one setting, in order. -/
def values (reading : Reading) (setting : Setting) : List String :=
  valuesOf setting reading.settings

/-- The values of one setting that is a number, in order. -/
def numbers (reading : Reading) (setting : Setting) : List (Option Nat) :=
  (reading.values setting).map number?

@[simp] theorem feed_nil (reading : Reading) : reading.feed [] = reading := rfl

@[simp] theorem feed_cons
    (reading : Reading)
    (argument : String)
    (rest : List String) :
    reading.feed (argument :: rest) = (reading.step argument).feed rest := rfl

/-- Reading goes on where it stopped. -/
theorem feed_append
    (reading : Reading)
    (left right : List String) :
    reading.feed (left ++ right) = (reading.feed left).feed right :=
  List.foldl_append

end Reading

/-- The arguments of a setting. -/
def write (entry : Setting × String) : List String :=
  [entry.1.flag, entry.2]

/-! ## Values of one setting -/

/-- Some values of one setting. -/
def each
    (setting : Setting)
    (values : List String) : List (Setting × String) :=
  values.map fun value => (setting, value)

theorem valuesOf_append
    (setting : Setting)
    (left right : List (Setting × String)) :
    valuesOf setting (left ++ right) =
      valuesOf setting left ++ valuesOf setting right :=
  List.filterMap_append

/-- Values of one setting are all values of that setting, and none of any
other. -/
theorem valuesOf_each
    (setting other : Setting)
    (values : List String) :
    valuesOf setting (each other values) =
      if other = setting then values else [] := by
  rw [valuesOf, each, List.filterMap_map, Function.comp_def]
  split <;> simp

/-- A number is read back from its digits. -/
theorem number?_toString (number : Nat) :
    number? (toString number) = some number := by
  have digits_eq : (toString number).toList = Nat.toDigits 10 number := by
    simp
  have areDigits : (Nat.toDigits 10 number).all Char.isDigit = true := by
    rw [List.all_eq_true]
    intro c present
    exact Nat.isDigit_of_mem_toDigits (by decide) (by decide) present
  rw [number?, digits_eq, if_pos ⟨Nat.toDigits_ne_nil, areDigits⟩,
    Nat.ofDigitChars_toDigits (by decide) (by decide)]

/-! ## Reading one part of the arguments -/

namespace Setting

/-- An option is told from the one without a value. -/
theorem flag_ne_showFlag (setting : Setting) : setting.flag ≠ showFlag := by
  cases setting <;> decide

@[simp] theorem ofFlag?_flag (setting : Setting) :
    ofFlag? setting.flag = some setting := by
  cases setting <;> decide

/-- Options start with a dash. -/
theorem ofFlag?_eq_none
    {argument : String}
    (noDash : argument.toList.head? ≠ some '-') :
    ofFlag? argument = none := by
  rw [ofFlag?, List.find?_eq_none]
  intro setting _
  rw [decide_eq_true_eq]
  rintro rfl
  revert noDash
  cases setting <;> decide

end Setting

namespace Reading

variable {reading : Reading}

/-- An option takes the argument after it, whatever that is. -/
theorem feed_write
    (nothingPending : reading.pending = none)
    (entry : Setting × String) :
    reading.feed (write entry) =
      { reading with settings := reading.settings ++ [entry] } := by
  have option_eq : reading.step entry.1.flag =
      { reading with pending := some entry.1 } := by
    simp [step, nothingPending, entry.1.flag_ne_showFlag]
  rw [write, feed_cons, option_eq, feed_cons, feed_nil, step]
  simp [nothingPending]

/-- Settings one after another are all read. -/
theorem feed_flatMap_write
    (nothingPending : reading.pending = none)
    (entries : List (Setting × String)) :
    reading.feed (entries.flatMap write) =
      { reading with settings := reading.settings ++ entries } := by
  induction entries generalizing reading with
  | nil => simp
  | cons entry rest inductionHypothesis =>
      rw [List.flatMap_cons, feed_append, feed_write nothingPending,
        inductionHypothesis]
      · simp
      · exact nothingPending

/-- The option without a value is read where it is written. -/
theorem feed_show
    (nothingPending : reading.pending = none)
    (showsOutput : Bool)
    (notYet : reading.showsOutput = false) :
    reading.feed (if showsOutput then [showFlag] else []) =
      { reading with showsOutput } := by
  obtain ⟨pending, settings, shown, commands⟩ := reading
  obtain rfl : pending = none := nothingPending
  obtain rfl : shown = false := notYet
  cases showsOutput <;> rfl

/-- Arguments that do not start with a dash are commands. -/
theorem feed_commands
    (nothingPending : reading.pending = none)
    {lines : List String}
    (noDash : ∀ line ∈ lines, line.toList.head? ≠ some '-') :
    reading.feed lines =
      { reading with commands := reading.commands ++ lines } := by
  induction lines generalizing reading with
  | nil => simp
  | cons line rest inductionHypothesis =>
      rw [List.forall_mem_cons] at noDash
      have notShow : line ≠ showFlag := by
        rintro rfl
        exact noDash.1 (by decide)
      have line_eq : reading.step line =
          { reading with commands := reading.commands ++ [line] } := by
        simp [step, nothingPending, notShow,
          Setting.ofFlag?_eq_none noDash.1]
      rw [feed_cons, line_eq, inductionHypothesis _ noDash.2]
      · simp
      · exact nothingPending

end Reading

/-! ## The arguments of a group -/

/-- The number of timed runs, as a setting. -/
def runSettings : RunCount -> List (Setting × String)
  | .atLeast count => each .minRuns [toString count]
  | .exactly count => each .runs [toString count]

/-- The counts of a run, as settings. -/
def countSettings (options : HarnessOptions) : List (Setting × String) :=
  each .warmup [toString options.warmup] ++ runSettings options.runs

/-- The preparations of a group, one for every command or none at all. -/
def preparations (group : Group) : List String :=
  if group.anyPrepare then
    group.commands.map fun command => command.prepare.getD idle
  else []

/-- The file of the timings, the preparations and the names, as settings. -/
def groupSettings
    (harness : Harness)
    (group : Group) : List (Setting × String) :=
  each .exportFile
      ((harness.exportPath? group.operation).toList.map Path.text) ++
    (each .prepare (preparations group) ++
      each .commandName (group.commands.map Command.name))

theorem flatMap_write_each
    (setting : Setting)
    (text : α -> String)
    (items : List α) :
    (each setting (items.map text)).flatMap write =
      items.flatMap fun item => [setting.flag, text item] := by
  rw [each, List.map_map, List.flatMap_map]
  rfl

/-- The arguments are settings, the option without a value among them, and
then the commands. -/
theorem arguments_eq
    (harness : Harness)
    (group : Group) :
    harness.arguments group =
      (countSettings harness.options).flatMap write ++
        ((if harness.options.showOutput then [showFlag] else []) ++
          ((harness.groupSettings group).flatMap write ++
            group.commands.map Command.shellLine)) := by
  have counts_eq : ["--warmup", toString harness.options.warmup] ++
      runArguments harness.options.runs =
        (countSettings harness.options).flatMap write := by
    rw [countSettings]
    cases harness.options.runs <;> rfl
  have options_eq : harness.optionArguments group.operation =
      (countSettings harness.options).flatMap write ++
        (if harness.options.showOutput then [showFlag] else []) ++
        (each .exportFile ((harness.exportPath? group.operation).toList.map
          Path.text)).flatMap write := by
    rw [optionArguments, counts_eq]
    cases harness.exportPath? group.operation <;> rfl
  have prepare_eq : prepareArguments group =
      (each .prepare (preparations group)).flatMap write := by
    rw [prepareArguments, preparations]
    split
    · rw [flatMap_write_each]
      rfl
    · rfl
  have names_eq : nameArguments group =
      (each .commandName (group.commands.map Command.name)).flatMap write := by
    rw [flatMap_write_each]
    rfl
  rw [arguments, options_eq, prepare_eq, names_eq]
  simp only [groupSettings, List.flatMap_append, List.append_assoc]

/-- What is read of the arguments of a group. -/
theorem feed_arguments
    (harness : Harness)
    {group : Group}
    (noDash : ∀ command ∈ group.commands,
      command.shellLine.toList.head? ≠ some '-') :
    Reading.feed {} (harness.arguments group) =
      { settings :=
          countSettings harness.options ++ harness.groupSettings group
        showsOutput := harness.options.showOutput
        commands := group.commands.map Command.shellLine } := by
  have noDashLines : ∀ line ∈ group.commands.map Command.shellLine,
      line.toList.head? ≠ some '-' := by
    intro line member
    obtain ⟨command, present, rfl⟩ := List.mem_map.mp member
    exact noDash command present
  rw [arguments_eq, Reading.feed_append, Reading.feed_flatMap_write rfl,
    Reading.feed_append, Reading.feed_show rfl _ rfl, Reading.feed_append,
    Reading.feed_flatMap_write rfl, Reading.feed_commands rfl noDashLines]
  simp

/-- The values that are read of the arguments of a group, setting by
setting. -/
theorem values_arguments
    (harness : Harness)
    {group : Group}
    (noDash : ∀ command ∈ group.commands,
      command.shellLine.toList.head? ≠ some '-')
    (setting : Setting) :
    (Reading.feed {} (harness.arguments group)).values setting =
      match setting, harness.options.runs with
      | .warmup, _ => [toString harness.options.warmup]
      | .minRuns, .atLeast count => [toString count]
      | .minRuns, .exactly _ => []
      | .runs, .atLeast _ => []
      | .runs, .exactly count => [toString count]
      | .exportFile, _ =>
        (harness.exportPath? group.operation).toList.map Path.text
      | .prepare, _ => preparations group
      | .commandName, _ => group.commands.map Command.name := by
  rw [harness.feed_arguments noDash, Reading.values, countSettings,
    groupSettings]
  cases harness.options.runs <;> cases setting <;>
    simp [runSettings, valuesOf_append, valuesOf_each]

/-! ## What is understood -/

/-- What is read is what was asked for.  The lists go through the commands of
the group in order. -/
structure Understood
    (harness : Harness)
    (group : Group)
    (reading : Reading) : Prop where
  /-- No option waits for its value. -/
  complete : reading.pending = none
  /-- The number of runs that are not timed is given once. -/
  warmup : reading.numbers .warmup = [some harness.options.warmup]
  /-- The number of timed runs is given once, and in one way only. -/
  runs : match harness.options.runs with
    | .atLeast count =>
      reading.numbers .minRuns = [some count] ∧ reading.numbers .runs = []
    | .exactly count =>
      reading.numbers .runs = [some count] ∧ reading.numbers .minRuns = []
  /-- Commands may write to the console if they were allowed to. -/
  output : reading.showsOutput = harness.options.showOutput
  /-- The timings are written to the file of the operation, if anywhere. -/
  exports : reading.values .exportFile =
    harness.options.exportDir.toList.map fun dir =>
      (dir.join (group.operation.name ++ ".json")).text
  /-- The names are those of the commands. -/
  names : reading.values .commandName = group.commands.map Command.name
  /-- The commands are their lines. -/
  commands : reading.commands = group.commands.map Command.shellLine
  /-- Where no command has a preparation, there is none. -/
  unprepared : (∀ command ∈ group.commands, command.prepare = none) ->
    reading.values .prepare = []
  /-- Where one has, each has its own or one that does nothing. -/
  prepared : (∃ command ∈ group.commands, command.prepare ≠ none) ->
    reading.values .prepare =
      group.commands.map fun command => command.prepare.getD "true"

/-- What is read at a position is what one command gives. -/
structure Reading.Aligned
    (reading : Reading)
    (index : Nat)
    (command : Command) : Prop where
  /-- The name there is its name. -/
  name : (reading.values .commandName)[index]? = some command.name
  /-- The command there is its line. -/
  line : reading.commands[index]? = some command.shellLine
  /-- The preparation there is its own or one that does nothing, unless there
  are no preparations at all. -/
  prepare : reading.values .prepare = [] ∧ command.prepare = none ∨
    (reading.values .prepare)[index]? = some (command.prepare.getD "true")

/-- What is read at one position belongs to the command at that position. -/
theorem Understood.aligned
    {harness : Harness}
    {group : Group}
    {reading : Reading}
    (understood : Understood harness group reading)
    {index : Nat}
    {command : Command}
    (atIndex : group.commands[index]? = some command) :
    reading.Aligned index command where
  name := by
    rw [understood.names, List.getElem?_map, atIndex, Option.map_some]
  line := by
    rw [understood.commands, List.getElem?_map, atIndex, Option.map_some]
  prepare := by
    by_cases somePrepared : ∃ other ∈ group.commands, other.prepare ≠ none
    · right
      rw [understood.prepared somePrepared, List.getElem?_map, atIndex,
        Option.map_some]
    · left
      have noneAtAll : ∀ other ∈ group.commands, other.prepare = none := by
        simpa using somePrepared
      exact ⟨understood.unprepared noneAtAll,
        noneAtAll command (List.mem_of_getElem? atIndex)⟩

/-- The preparations are those of the commands where some command has one. -/
theorem preparations_cases (group : Group) :
    ((∀ command ∈ group.commands, command.prepare = none) ->
        preparations group = []) ∧
      ((∃ command ∈ group.commands, command.prepare ≠ none) ->
        preparations group =
          group.commands.map fun command => command.prepare.getD "true") := by
  have any_iff : group.anyPrepare = true ↔
      ∃ command ∈ group.commands, command.prepare ≠ none := by
    simp [Group.anyPrepare, Option.isSome_iff_ne_none]
  constructor
  · intro noneAtAll
    rw [preparations, if_neg]
    rw [any_iff]
    rintro ⟨command, member, isPrepared⟩
    exact isPrepared (noneAtAll command member)
  · intro somePrepared
    rw [preparations, if_pos (any_iff.mpr somePrepared)]
    rfl

/-- The timing program reads the arguments of a group as what the group asks
for, and at every position it reads the name, the preparation and the line of
one and the same command, whatever names and preparations look like.  Only the
lines must not look like options. -/
theorem arguments_understood
    (harness : Harness)
    (group : Group)
    (noDash : ∀ command ∈ group.commands,
      command.shellLine.toList.head? ≠ some '-') :
    let reading := Reading.feed {} (harness.arguments group)
    Understood harness group reading ∧
      ∀ (index : Nat) (command : Command),
        group.commands[index]? = some command ->
          reading.Aligned index command := by
  intro reading
  have reading_eq : reading = _ := harness.feed_arguments noDash
  have values_eq := harness.values_arguments noDash
  obtain ⟨unprepared, prepared⟩ := preparations_cases group
  have understood : Understood harness group reading :=
    { complete := by rw [reading_eq]
      warmup := by
        rw [Reading.numbers, values_eq, List.map_singleton, number?_toString]
      runs := by
        cases runs_eq : harness.options.runs <;>
          simp only [Reading.numbers, reading, values_eq, runs_eq,
            List.map_cons, List.map_nil, number?_toString, and_self]
      output := by rw [reading_eq]
      exports := by
        cases dir_eq : harness.options.exportDir <;>
          simp [reading, values_eq, exportPath?, dir_eq]
      names := values_eq .commandName
      commands := by rw [reading_eq]
      unprepared := fun noneAtAll =>
        (values_eq .prepare).trans (unprepared noneAtAll)
      prepared := fun somePrepared =>
        (values_eq .prepare).trans (prepared somePrepared) }
  exact ⟨understood, fun _ _ => understood.aligned⟩

/-- A name and a preparation that look like options, and a command that has no
preparation. -/
theorem arguments_understood_optionlike :
    let harness : Harness :=
      { binary := ⟨"/bin/hyperfine"⟩
        options :=
          { warmup := 0
            runs := .exactly 2
            showOutput := true
            exportDir := some ⟨"/results"⟩ } }
    let first : Command :=
      { name := "--prepare"
        prepare := some "--command-name"
        invocation := .words ["uv", "lock"] }
    let second : Command := { name := "", invocation := .words ["a b"] }
    let group : Group := ⟨.lockWarm, [first, second]⟩
    let reading := Reading.feed {} (harness.arguments group)
    (∀ command ∈ group.commands,
        command.shellLine.toList.head? ≠ some '-') ∧
      Understood harness group reading ∧
      reading.Aligned 0 first ∧ reading.Aligned 1 second := by
  intro harness first second group reading
  have noDash : ∀ command ∈ group.commands,
      command.shellLine.toList.head? ≠ some '-' := by decide +kernel
  obtain ⟨understood, aligned⟩ := arguments_understood harness group noDash
  exact ⟨noDash, understood, aligned 0 first rfl, aligned 1 second rfl⟩

end Harness
end LockBench
