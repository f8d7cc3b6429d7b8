import LockBench.Host.Action
import LockBench.Manifest.Project

/-!
# Manifests on a host

Reading a Pipfile, and writing the project file that says the same.
-/

namespace LockBench

/-- Why a manifest could not be read or written. -/
inductive ManifestFailure
  | read (path : Path) (cause : OsError)
  | write (path : Path) (cause : OsError)
  deriving DecidableEq, Repr

/-- The text under which a failure is reported. -/
def ManifestFailure.message : ManifestFailure -> String
  | .read path cause =>
    "Failed to read manifest " ++ path.text ++ ": " ++ cause.message
  | .write path cause =>
    "Failed to write manifest " ++ path.text ++ ": " ++ cause.message

namespace Pipfile

/-- The dependencies that a Pipfile declares. -/
def readFrom (path : Path) : Action (Except ManifestFailure Pipfile) := do
  match ← Action.readText path with
  | .error cause => return .error (.read path cause)
  | .ok text => return .ok (ofText text)

end Pipfile

namespace Project

/-- The text of the project file for a Pipfile. -/
def translate
    (options : ProjectOptions)
    (path : Path) : Action (Except ManifestFailure String) := do
  match ← Pipfile.readFrom path with
  | .error failure => return .error failure
  | .ok pipfile => return .ok (render options pipfile)

/-- Write the project file for a Pipfile into a directory, and tell where. -/
def writeInto
    (options : ProjectOptions)
    (path dir : Path) : Action (Except ManifestFailure Path) := do
  match ← translate options path with
  | .error failure => return .error failure
  | .ok text =>
    let target := dir.join fileName
    match ← Action.writeText target text with
    | .error cause => return .error (.write target cause)
    | .ok () => return .ok target

end Project
end LockBench
