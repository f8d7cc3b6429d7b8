import LockBench.CommandLine.Topic

/-!
# Instructions

The words of a command line are an instruction to the program, or a reason to
do something else: to show help or the version, or to refuse them.
-/

namespace LockBench
namespace CommandLine

/-- What the program is to do. -/
inductive Job
  | run (task : RunTask)
  | translate (task : TranslateTask)
  | report (task : ReportTask)
  | configure (task : ConfigureTask)
  deriving DecidableEq, Repr

/-- An instruction to the program. -/
structure Instruction where
  /-- How much the user wants to be told. -/
  loudness : Loudness
  /-- What the program is to do. -/
  job : Job
  deriving DecidableEq, Repr

/-- Why the words of a command line are no instruction. -/
inductive Stop
  /-- Help was asked for, in its long form or in its short one. -/
  | help (topic : Topic) (long : Bool)
  | version
  /-- Nothing was asked for. -/
  | nothingAsked
  | refused (topic : Topic) (error : UsageError)
  deriving DecidableEq, Repr

namespace Stop

/-- Why gathering the arguments of a command ended. -/
def ofInterruption
    (topic : Topic) : Interruption -> Stop
  | .help long => .help topic long
  | .version => .version
  | .refused error => .refused topic error

end Stop

namespace Instruction

/-- An outcome of gathering, with the topic it is about. -/
def gathered
    (topic : Topic)
    (outcome : Except Interruption α) : Except Stop α :=
  outcome.mapError (Stop.ofInterruption topic)

/-- A consistent and complete draft. -/
def checked
    (topic : Topic)
    (outcome : Except UsageError α) : Except Stop α :=
  outcome.mapError (Stop.refused topic)

/-- The draft of a command without subcommands. -/
def readLeaf
    (topic : Topic)
    (form : Form Empty (Draft τ))
    (task : τ)
    (words : List String) : Except Stop (Draft τ) := do
  let (progress, _) ←
    gathered topic (form.gather { draft := { task } } words)
  checked topic (form.check progress)

/-- An instruction from the draft of a command. -/
def ofDraft
    (job : τ -> Job)
    (draft : Draft τ) : Instruction :=
  ⟨draft.loudness, job draft.task⟩

/-- The answer to a request for help about a topic below another one. -/
def seekHelp
    (topic : Topic)
    (names : List String) : Stop :=
  match topic.follow names with
  | .ok found => .help found true
  | .error error => .refused topic error

/-- The instruction that the words after a subcommand of the configuration
make. -/
def readConfigCommand
    (command : ConfigCommand)
    (words : List String) : Except Stop Instruction := do
  let topic := Topic.configCommand command
  match command with
  | .showAll =>
    return ofDraft (fun _ => .configure .showAll)
      (← readLeaf topic plainForm () words)
  | .showPath =>
    return ofDraft (fun _ => .configure .showPath)
      (← readLeaf topic plainForm () words)
  | .get =>
    return ofDraft (fun key => .configure (.get key))
      (← readLeaf topic getForm "" words)
  | .set =>
    return ofDraft (fun (key, value) => .configure (.set key value))
      (← readLeaf topic setForm ("", "") words)
  | .help => throw (seekHelp (.command .config) words)

/-- An instruction as it stands below a command with a loudness of its own. -/
def below
    (loudness : Loudness)
    (instruction : Instruction) : Instruction :=
  { instruction with loudness := loudness.within instruction.loudness }

/-- The instruction that the words after the name of the configuration make. -/
def readConfig (words : List String) : Except Stop Instruction := do
  let topic := Topic.command .config
  let (progress, onward) ←
    gathered topic (configForm.gather { draft := { task := () } } words)
  match onward with
  | none =>
    return ofDraft (fun _ => .configure .showAll)
      (← checked topic (configForm.check progress))
  | some onward =>
    return below progress.draft.loudness
      (← readConfigCommand onward.command onward.words)

/-- The instruction that the words after a subcommand of the program make. -/
def readCommand
    (command : ProgramCommand)
    (words : List String) : Except Stop Instruction := do
  let topic := Topic.command command
  match command with
  | .run => return ofDraft .run (← readLeaf topic runForm { fixture := "" } words)
  | .translate =>
    return ofDraft .translate
      (← readLeaf topic translateForm { pipfile := ⟨""⟩ } words)
  | .report => return ofDraft .report (← readLeaf topic reportForm {} words)
  | .config => readConfig words
  | .help => throw (seekHelp .program words)

/-- The instruction that the words of a command line make. -/
def ofWords (words : List String) : Except Stop Instruction := do
  let (progress, onward) ←
    gathered .program (programForm.gather { draft := { task := () } } words)
  match onward with
  | none =>
    if progress.given.isEmpty then throw .nothingAsked
    else throw (.refused .program (.missingCommand Topic.programName))
  | some onward =>
    return below progress.draft.loudness
      (← readCommand onward.command onward.words)

end Instruction
end CommandLine
end LockBench
