import LockBench.Host.Path

/-!
# Processes

What is needed to start a process, and what is left when it has ended.
-/

namespace LockBench

/-- A process to start: the program, its arguments, the variables set for it
beside those it inherits, and its working directory if it is not inherited. -/
structure Launch where
  /-- The program as it is named. -/
  program : String
  /-- The arguments after the program's name. -/
  arguments : List String
  /-- Variables set for the process, in order of their names. -/
  environment : List (String × String) := []
  /-- The working directory, if it is not inherited. -/
  workingDir : Option Path := none
  deriving DecidableEq, Repr, Inhabited

/-- How a process ended. -/
inductive Exit
  | code (value : Int)
  | signal
  deriving DecidableEq, Repr, Inhabited

namespace Exit

/-- The exit code, unless a signal ended the process. -/
def code? : Exit -> Option Int
  | .code value => some value
  | .signal => none

/-- Whether the process reported success. -/
def succeeded (exit : Exit) : Bool :=
  exit = .code 0

@[simp] theorem succeeded_iff (exit : Exit) :
    exit.succeeded = true ↔ exit = .code 0 := by
  simp [succeeded]

end Exit

/-- A finished process with everything it wrote. -/
structure Captured where
  /-- How it ended. -/
  exit : Exit
  /-- What it wrote to its standard output. -/
  stdout : ByteArray
  /-- What it wrote to its standard error. -/
  stderr : ByteArray

end LockBench
