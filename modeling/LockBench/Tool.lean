import LockBench.Text.Blank

/-!
# Tools

The package managers under comparison.
-/

namespace LockBench

/-- A package manager. -/
inductive Tool
  | ripenv
  | pipenv
  | uv
  deriving DecidableEq, Repr, Inhabited

namespace Tool

/-- Every tool, in the order in which they are listed. -/
def all : List Tool := [.ripenv, .pipenv, .uv]

theorem mem_all (tool : Tool) : tool ∈ all := by
  cases tool <;> decide

/-- The name of a tool, under which it is also searched for. -/
def name : Tool -> String
  | .ripenv => "ripenv"
  | .pipenv => "pipenv"
  | .uv => "uv"

/-- The name of the lockfile that a tool writes. -/
def lockfileName : Tool -> String
  | .ripenv => "uv.lock"
  | .pipenv => "Pipfile.lock"
  | .uv => "uv.lock"

/-- The tool of a name, blanks at either end of it aside. -/
def ofName? (text : String) : Option Tool :=
  all.find? fun tool => tool.name = Text.trim text

end Tool
end LockBench
