import LockBench.Host.Action
import LockBench.Style

/-!
# The journal of a session

Every message goes to the log file of the session.  What the console shows of
it depends on the verbosity.  An entry is plain data: its records for the log
and its text for the console are functions of it.
-/

namespace LockBench

/-- What may be noted in a journal. -/
inductive Entry
  | info (message : String)
  | debug (message : String)
  | warn (message : String)
  | error (message : String)
  | success (message : String)
  | step (message : String)
  /-- The heading of a comparison group. -/
  | banner (title : String)
  /-- A longer piece of work has begun. -/
  | progress (message : String)
  /-- The work that was begun has failed. -/
  | failure (message : String)
  /-- The end of a process and what it wrote. -/
  | captured (name : String) (code : Option Int) (stdout stderr : String)
  deriving DecidableEq, Repr

namespace Entry

/-- The exit code of a process as a record shows it. -/
def codeText : Option Int -> String
  | none => "None"
  | some code => "Some(" ++ toString code ++ ")"

/-- What a process wrote to one stream, as a record of its own unless it
wrote nothing. -/
def streamRecord
    (name text : String) : List String :=
  if text.isEmpty then [] else ["  " ++ name ++ ":\n" ++ text]

/-- The records of an entry in the log. -/
def records : Entry -> List String
  | .info message => ["INFO " ++ message]
  | .debug message => ["DEBUG " ++ message]
  | .warn message => ["WARN " ++ message]
  | .error message => ["ERROR " ++ message]
  | .success message => ["SUCCESS " ++ message]
  | .step message => ["STEP: " ++ message]
  | .banner title => ["BENCHMARK " ++ title]
  | .progress message => ["STEP: " ++ message]
  | .failure message => ["ERROR " ++ message]
  | .captured name code stdout stderr =>
    ("COMMAND: " ++ name ++ " (exit code: " ++ codeText code ++ ")") ::
      streamRecord "STDOUT" stdout ++ streamRecord "STDERR" stderr

/-- The line above and below the title of a banner. -/
def rule : String :=
  String.ofList (List.replicate 60 '=')

/-- The text of an entry on the standard output. -/
def stdout
    (colored : Bool) : Entry -> String
  | .banner title =>
    "\n" ++ rule ++ "\n  Benchmark: " ++
      Style.emphasis.paint colored title ++ "\n" ++ rule ++ "\n\n"
  | _ => ""

/-- A message after a bold label in an ink. -/
def labelled
    (colored : Bool)
    (ink : Ink)
    (label message : String) : String :=
  (Style.mk true (some ink)).paint colored label ++ " " ++ message ++ "\n"

/-- The text of an entry on the standard error. -/
def stderr
    (verbosity : Nat)
    (colored : Bool) : Entry -> String
  | .info message => if 1 ≤ verbosity then message ++ "\n" else ""
  | .debug message =>
    if 1 ≤ verbosity then labelled colored .blue "DEBUG:" message else ""
  | .warn message => labelled colored .yellow "warning:" message
  | .error message => labelled colored .red "error:" message
  | .success message => labelled colored .green "✔" message
  | .step message =>
    if 2 ≤ verbosity then "TRACE: " ++ message ++ "\n" else ""
  | .progress message => if 1 ≤ verbosity then message ++ "\n" else ""
  | .failure message => "  " ++ labelled colored .red "✗" message
  | .banner _ => ""
  | .captured _ _ _ _ => ""

/-- Whether an entry is shown on the console before it is in the log: a step is,
and nothing else. -/
def isShownFirst : Entry -> Bool
  | .step _ => true
  | _ => false

end Entry

/-- Where a session's messages go. -/
structure Journal where
  /-- How much the console shows. -/
  verbosity : Nat := 0
  /-- The log file, if there is one. -/
  file : Option Path := none
  /-- Whether the console shows styles. -/
  colored : Bool := false
  deriving DecidableEq, Repr

namespace Journal

/-- Name of the log file in its directory. -/
def fileName : String := "bench-ripenv.log"

/-- A record as a line of the log. -/
def line
    (time record : String) : String :=
  "[" ++ time ++ "] " ++ record ++ "\n"

/-- Add a record to the log file, if there is one.  A log that cannot be
written is no error. -/
def record
    (journal : Journal)
    (text : String) : Action Unit := do
  match journal.file with
  | none => return ()
  | some file => discard (Action.appendText file (line (← Action.clock) text))

/-- Write a text unless it is empty. -/
def emit
    (write : String -> Action Unit)
    (text : String) : Action Unit :=
  if text.isEmpty then return () else write text

/-- Show an entry on the console, as far as the verbosity goes. -/
def display
    (journal : Journal)
    (entry : Entry) : Action Unit := do
  emit Action.print (entry.stdout journal.colored)
  emit Action.printError (entry.stderr journal.verbosity journal.colored)

/-- Note an entry: in the log, and on the console as far as the verbosity
goes. -/
def note
    (journal : Journal)
    (entry : Entry) : Action Unit := do
  if entry.isShownFirst then
    journal.display entry
    entry.records.forM journal.record
  else
    entry.records.forM journal.record
    journal.display entry

/-- Start a log in a directory.  A log that is there is removed; where the
directory cannot be made, the journal keeps its old log. -/
def start
    (journal : Journal)
    (verbosity : Nat)
    (dir : Path) : Action (Except OsError Path × Journal) := do
  let journal := { journal with verbosity }
  match ← Action.makeDirs dir with
  | .error cause => return (.error cause, journal)
  | .ok () =>
    let file := dir.join fileName
    if ← Action.pathExists file then
      discard (Action.removeFile file)
    return (.ok file, { journal with file := some file })

/-- The text under which a log that could not be started is reported. -/
def startMessage (cause : OsError) : String :=
  "Failed to create log directory: " ++ cause.message

/-- The filter for the messages of libraries at this verbosity. -/
def filter (journal : Journal) : String :=
  match journal.verbosity with
  | 0 => "warn"
  | 1 => "debug"
  | _ => "trace"

/-- Tell the user where the log is. -/
def showPath (journal : Journal) : Action Unit :=
  match journal.file with
  | some file => Action.printError ("Log file: " ++ file.text ++ "\n")
  | none => Action.printError "Log file location not available\n"

end Journal
end LockBench
