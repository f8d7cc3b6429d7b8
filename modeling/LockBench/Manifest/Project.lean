import LockBench.Manifest.Pipfile
import LockBench.Toml.Writer

/-!
# Project files

The run-time requirements of a Pipfile become the dependencies of a project,
and its development requirements the `dev` group.  Both lists are written
also when they are empty.
-/

namespace LockBench

/-- What a project file says beside its dependencies. -/
structure ProjectOptions where
  /-- The project's name. -/
  name : String := "bench-fixture"
  /-- The project's version. -/
  version : String := "0.0.1"
  /-- The interpreter versions that it accepts. -/
  requiresPython : String := ">=3.12"
  deriving DecidableEq, Repr, Inhabited

namespace Project

/-- Name of a project file in its directory. -/
def fileName : String := "pyproject.toml"

/-- The tables of a project file. -/
def tables
    (options : ProjectOptions)
    (pipfile : Pipfile) : List Toml.PlainTable :=
  [{ name := some "project",
     entries :=
      [("name", .text options.name),
       ("version", .text options.version),
       ("requires-python", .text options.requiresPython),
       ("dependencies", .texts (pipfile.packages.map Requirement.text))] },
   { name := some "dependency-groups",
     entries :=
      [("dev", .texts (pipfile.devPackages.map Requirement.text))] }]

/-- The text of a project file. -/
def render
    (options : ProjectOptions)
    (pipfile : Pipfile) : String :=
  Toml.writeDocument .compact (tables options pipfile)

end Project
end LockBench
