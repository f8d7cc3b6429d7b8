import LockBench.Text.Blank

/-!
# Operations

A benchmark operation is a step of a project's life together with the state
of the cache in which it is timed.  Which artifacts must be cleared before a
timed run follows from the two.
-/

namespace LockBench

/-- A step of a project's life. -/
inductive Step
  | lock
  | sync
  | install
  deriving DecidableEq, Repr

/-- The word for a step, which is also the subcommand of the tools. -/
def Step.name : Step -> String
  | .lock => "lock"
  | .sync => "sync"
  | .install => "install"

/-- The state of the cache in which a step is timed. -/
inductive Temperature
  /-- Nothing is cached. -/
  | cold
  /-- The cache is kept, what the step makes is not. -/
  | warm
  /-- Everything is kept: there is nothing left to do. -/
  | noop
  deriving DecidableEq, Repr

/-- The word for a temperature. -/
def Temperature.name : Temperature -> String
  | .cold => "cold"
  | .warm => "warm"
  | .noop => "noop"

/-- The operations that can be timed. -/
inductive Operation
  | lockCold
  | lockWarm
  | lockNoop
  | syncCold
  | syncWarm
  | syncNoop
  | installCold
  | installWarm
  deriving DecidableEq, Repr, Inhabited

namespace Operation

/-- Every operation, in the order in which they are listed. -/
def all : List Operation :=
  [.lockCold, .lockWarm, .lockNoop, .syncCold, .syncWarm, .syncNoop,
    .installCold, .installWarm]

theorem mem_all (operation : Operation) : operation ∈ all := by
  cases operation <;> decide

/-- The operations that run when none is chosen. -/
def defaults : List Operation :=
  [.lockCold, .lockWarm, .lockNoop, .syncCold, .syncWarm, .installCold,
    .installWarm]

/-- The step that an operation times. -/
def step : Operation -> Step
  | .lockCold | .lockWarm | .lockNoop => .lock
  | .syncCold | .syncWarm | .syncNoop => .sync
  | .installCold | .installWarm => .install

/-- The temperature at which an operation times its step. -/
def temperature : Operation -> Temperature
  | .lockCold | .syncCold | .installCold => .cold
  | .lockWarm | .syncWarm | .installWarm => .warm
  | .lockNoop | .syncNoop => .noop

/-- The name of an operation. -/
def name : Operation -> String
  | .lockCold => "lock-cold"
  | .lockWarm => "lock-warm"
  | .lockNoop => "lock-noop"
  | .syncCold => "sync-cold"
  | .syncWarm => "sync-warm"
  | .syncNoop => "sync-noop"
  | .installCold => "install-cold"
  | .installWarm => "install-warm"

/-- The name is that of the step and that of the temperature. -/
theorem name_eq (operation : Operation) :
    operation.name =
      operation.step.name ++ "-" ++ operation.temperature.name := by
  cases operation <;> decide

/-- Whether the lockfile must be gone before a timed run. -/
def clearsLockfile (operation : Operation) : Bool :=
  operation.temperature ≠ .noop ∧ operation.step ≠ .sync

/-- Whether the virtual environment must be gone before a timed run. -/
def clearsVenv (operation : Operation) : Bool :=
  operation.temperature ≠ .noop ∧ operation.step ≠ .lock

/-- Whether the cache must be gone before a timed run. -/
def clearsCache (operation : Operation) : Bool :=
  operation.temperature = .cold

/-- The names of all operations in one line. -/
def names : String :=
  ", ".intercalate (all.map name)

/-- The operation of a name, blanks at either end of it aside. -/
def ofName? (text : String) : Option Operation :=
  all.find? fun operation => operation.name = Text.trim text

end Operation
end LockBench
