import LockBench.Host.Process
import LockBench.Shell.Quote

/-!
# Commands

A command is what one tool does for one operation: what is timed, the
environment and directory it is timed in, and the untimed preparation before
every run.  It can be written as one line for a shell, or started directly.
-/

namespace LockBench

/-- What a command runs. -/
inductive Invocation
  /-- A program and its arguments. -/
  | words (list : List String)
  /-- An expression for a shell. -/
  | expression (text : String)
  deriving DecidableEq, Repr, Inhabited

/-- A timed command. -/
structure Command where
  /-- The name under which its timing is reported. -/
  name : String
  /-- A shell line that runs untimed before every run. -/
  prepare : Option String := none
  /-- The variables it runs with, in order of their names. -/
  environment : List (String × String) := []
  /-- The directory it runs in, if it is not inherited. -/
  workingDir : Option Path := none
  /-- What it runs. -/
  invocation : Invocation
  deriving DecidableEq, Repr, Inhabited

namespace Command

/-- A variable set for one command, as a shell line writes it. -/
def assignment : String × String -> String
  | (name, value) => name ++ "=" ++ Shell.quote value

/-- The part of the line that changes the directory. -/
def directoryPart (command : Command) : String :=
  match command.workingDir with
  | none => ""
  | some dir => "cd " ++ Shell.quote dir.text ++ " && "

/-- The part of the line that runs something. -/
def invocationPart (command : Command) : String :=
  let assignments := command.environment.map assignment
  match command.invocation, assignments with
  | .words list, _ => " ".intercalate (assignments ++ list.map Shell.quote)
  | .expression text, [] => text
  | .expression text, _ =>
    "env " ++ " ".intercalate assignments ++ " sh -c " ++ Shell.quote text

/-- The command as one line for a POSIX shell. -/
def shellLine (command : Command) : String :=
  command.directoryPart ++ command.invocationPart

/-- The process that runs the command without a line for a shell; there is
none for a command without words. -/
def launch? (command : Command) : Option Launch :=
  match command.invocation with
  | .words [] => none
  | .words (program :: arguments) =>
    some ⟨program, arguments, command.environment, command.workingDir⟩
  | .expression text =>
    some ⟨"sh", ["-c", text], command.environment, command.workingDir⟩

end Command
end LockBench
