import LockBench.CommandLine.Instruction
import LockBench.Task.Configure

/-!
# The program

An instruction is carried out under a journal in the user's cache directory.
Its end is the exit code: nothing went wrong, the task failed, or the command
line was refused.
-/

namespace LockBench
namespace Program

open CommandLine (Instruction Job Stop Topic Markup)

/-- The version of the program. -/
def version : String := "0.1.0"

/-- The exit code of a command line that was refused. -/
def refusedCode : Nat := 2

/-- The exit code of a task that failed. -/
def failedCode : Nat := 1

/-! ## Colours -/

/-- Whether colours are forced. -/
def colorsForced : Action Bool := do
  return (← Action.environment "CLICOLOR_FORCE").any (· ≠ "0")

/-- Whether colours are forced and not forbidden, as help and usage errors
need it. -/
def colorsAllowed : Action Bool := do
  let forbidden := (← Action.environment "NO_COLOR").any (· ≠ "")
  return !forbidden && (← colorsForced)

/-! ## What is no instruction -/

/-- Answer a command line that is no instruction. -/
def answerStop (stop : Stop) : Action Nat := do
  let colored ← colorsAllowed
  match stop with
  | .help topic long =>
    Action.print ((topic.synopsis.page long).shown colored)
    return 0
  | .version =>
    Action.print (Topic.programName ++ " " ++ version ++ "\n")
    return 0
  | .nothingAsked =>
    Action.printError ((Topic.program.synopsis.page false).shown colored)
    return refusedCode
  | .refused topic error =>
    Action.printError ((error.report topic.synopsis.usage).shown colored)
    return refusedCode

/-! ## Instructions -/

/-- The directory of the journal. -/
def journalDir? : Action (Option Path) := do
  return (← Config.userDir? "XDG_CACHE_HOME" ".cache").map
    fun dir => dir.join Topic.programName

/-- Tell that there is no log. -/
def warnNoLog (reason : String) : Action Unit :=
  Action.printError
    ("Warning: Failed to initialize logger: " ++ reason ++ "\n")

/-- Start the journal of an instruction.  The instruction goes on without a log
where none can be started. -/
def startJournal
    (colored : Bool)
    (verbosity : Nat) : Action Journal := do
  let journal : Journal := { verbosity, colored }
  match ← journalDir? with
  | none =>
    warnNoLog "Could not determine cache directory"
    return journal
  | some dir =>
    let (outcome, journal) ← journal.start verbosity dir
    match outcome with
    | .ok _ => return journal
    | .error cause =>
      warnNoLog (Journal.startMessage cause)
      return journal

/-- The configuration, or the defaults where it cannot be loaded. -/
def loadConfig (journal : Journal) : Action Config := do
  match ← Config.load with
  | .ok config => return config
  | .error failure =>
    journal.note (.warn
      ("Failed to load config, using defaults: " ++ failure.message))
    return {}

/-- Carry out a job. -/
def performJob
    (journal : Journal)
    (verbosity : Nat) : Job -> Attempt Unit
  | .run task => do
    let config ← loadConfig journal
    discard (task.perform journal config verbosity)
  | .translate task => do task.perform journal (← loadConfig journal)
  | .report task => do task.perform journal (← loadConfig journal)
  | .configure task => task.perform journal verbosity

/-- Carry out an instruction. -/
def performInstruction (instruction : Instruction) : Action Nat := do
  let verbosity := instruction.loudness.level
  let journal ← startJournal (← colorsForced) verbosity
  match ← (performJob journal verbosity instruction.job).run with
  | .ok () => return 0
  | .error failure =>
    journal.note (.error failure.message)
    failure.showDetails
    journal.showPath
    return failedCode

/-- What the program does with the words of its command line; the result is
its exit code. -/
def perform (words : List String) : Action Nat :=
  match Instruction.ofWords words with
  | .error stop => answerStop stop
  | .ok instruction => performInstruction instruction

end Program
end LockBench
