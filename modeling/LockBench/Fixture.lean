import LockBench.Host.Action

/-!
# Fixtures

A fixture is the Pipfile that a session benchmarks.  It is a file, or one of
the few that are bundled with the program.
-/

namespace LockBench

/-- A Pipfile that comes with the program. -/
structure Bundled where
  /-- The name of the fixture. -/
  name : String
  /-- The text of its Pipfile. -/
  content : String
  deriving DecidableEq, Repr

namespace Bundled

/-- The lines above the dependencies of a bundled Pipfile. -/
def head : List String :=
  ["[[source]]", "url = \"https://pypi.org/simple\"", "verify_ssl = true",
    "name = \"pypi\"", ""]

/-- The lines below the dependencies of a bundled Pipfile. -/
def tail : List String :=
  ["", "[requires]", "python_version = \"3.12\""]

/-- A dependency as a line of a Pipfile. -/
def dependency : String × String -> String
  | (name, value) => name ++ " = \"" ++ value ++ "\""

/-- A bundled Pipfile by its dependencies. -/
def ofDependencies
    (name : String)
    (packages devPackages : List (String × String)) : Bundled where
  name := name
  content := String.join ((head ++ ["[packages]"] ++
    packages.map dependency ++ ["", "[dev-packages]"] ++
    devPackages.map dependency ++ tail).map (· ++ "\n"))

/-- The bundled fixtures, in order of their names. -/
def all : List Bundled :=
  [.ofDependencies "flask"
    [("flask", "*"), ("flask-sqlalchemy", "*"), ("flask-login", "*"),
      ("gunicorn", "*"), ("requests", ">=2.31")]
    [("pytest", "==7.4.0"), ("pytest-flask", "*"), ("black", "*")],
   .ofDependencies "jupyter"
    [("jupyter", "*"), ("jupyterlab", "*"), ("numpy", "*"), ("pandas", "*"),
      ("matplotlib", "*"), ("scipy", "*"), ("scikit-learn", "*")]
    [("pytest", "*"), ("nbval", "*")],
   .ofDependencies "trio" [("trio", "*")] []]

end Bundled

/-- A fixture that was found. -/
inductive Fixture
  | file (path : Path)
  | bundled (fixture : Bundled)
  deriving DecidableEq, Repr

namespace Fixture

/-- Name of a fixture's file in its directory. -/
def pipfileName : String := "Pipfile"

/-- Insert a name into an ascending list that does not hold it. -/
def insertName
    (name : String) : List String -> List String
  | [] => [name]
  | first :: rest =>
    if name < first then name :: first :: rest
    else if name = first then first :: rest
    else first :: insertName name rest

/-- The names of a directory's entries that hold a Pipfile, as they are
shown.  Where a name is no text, what is shown is not the name: no text leads to
the fixture then. -/
def directoryNames
    (dir : Path) : List EntryName -> Action (List String)
  | [] => return []
  | name :: rest => do
    let others ← directoryNames dir rest
    if ← Action.isFileAt (dir.inEntry name pipfileName) then
      return name.shown :: others
    else return others

/-- The names of the fixtures in a directory, if there is one. -/
def foundIn : Option Path -> Action (List String)
  | none => return []
  | some dir => do
    match ← Action.entries dir with
    | .error _ => return []
    | .ok names => directoryNames dir names

/-- The names of all fixtures, ascending and each once. -/
def available (dir : Option Path) : Action (List String) := do
  let found ← foundIn dir
  return (Bundled.all.map Bundled.name ++ found).foldr insertName []

/-- The files that a fixture's name may stand for, in the order in which they
are tried. -/
def candidates
    (name : String)
    (dir : Option Path) : List Path :=
  [⟨name⟩, (Path.mk name).join pipfileName] ++
    (dir.map fun dir => (dir.join name).join pipfileName).toList

/-- The first of some paths that leads to a regular file. -/
def firstFile? : List Path -> Action (Option Path)
  | [] => return none
  | path :: rest => do
    if ← Action.isFile path then return some path else firstFile? rest

/-- The fixture that a name stands for: a file, a file in a directory, a file
in the directory of fixtures, or a bundled one. -/
def resolve?
    (name : String)
    (dir : Option Path) : Action (Option Fixture) := do
  match ← firstFile? (candidates name dir) with
  | some path => return some (.file path)
  | none => return (Bundled.all.find? (·.name = name)).map .bundled

/-- Why a fixture could not be put on disk. -/
inductive Failure
  | directory (path : Path) (cause : OsError)
  | write (cause : OsError)
  deriving DecidableEq, Repr

/-- Where a bundled fixture is put. -/
def directory
    (sessionDir : Path)
    (fixture : Bundled) : Path :=
  sessionDir.join ("fixture-" ++ fixture.name)

/-- The path of a fixture's file; a bundled one is put on disk first. -/
def materialize
    (sessionDir : Path) : Fixture -> Action (Except Failure Path)
  | .file path => return .ok path
  | .bundled fixture => do
    let dir := directory sessionDir fixture
    match ← Action.makeDirs dir with
    | .error cause => return .error (.directory dir cause)
    | .ok () =>
      let path := dir.join pipfileName
      match ← Action.writeText path fixture.content with
      | .error cause => return .error (.write cause)
      | .ok () => return .ok path

end Fixture
end LockBench
