import LockBench.Failure
import LockBench.Journal

/-!
# Translating a Pipfile

The project file for a Pipfile is printed, or written where the user says.
-/

namespace LockBench

/-- What a project file says: what was asked for, or else what is
configured. -/
def Config.projectOptions
    (config : Config)
    (name requiresPython : Option String) : ProjectOptions :=
  { name := name.getD config.projectNameOrDefault
    requiresPython := requiresPython.getD config.requiresPythonOrDefault }

/-- A Pipfile to translate. -/
structure TranslateTask where
  /-- The Pipfile. -/
  pipfile : Path
  /-- Where the project file is written, if it is not printed. -/
  output : Option Path := none
  /-- The name of the project. -/
  name : Option String := none
  /-- The interpreter versions that it accepts. -/
  requiresPython : Option String := none
  deriving DecidableEq, Repr

/-- Print the project file, or write it and say so. -/
def TranslateTask.perform
    (task : TranslateTask)
    (journal : Journal)
    (config : Config) : Attempt Unit := do
  let options := config.projectOptions task.name task.requiresPython
  let text ← Attempt.lift .manifest (Project.translate options task.pipfile)
  match task.output with
  | none => Action.print text
  | some path =>
    Attempt.lift .io (Action.writeText path text)
    journal.note (.success ("Wrote " ++ path.text))

end LockBench
