import LockBench.Config.Document
import LockBench.Host.Action

/-!
# The configuration on a host

The file is where an environment variable says, or in the user's configuration
directory.  A file that is missing means that nothing is configured.
-/

namespace LockBench
namespace Config

/-- Why a configuration could not be loaded, changed or saved. -/
inductive Failure
  | io (cause : OsError)
  /-- The file holds no configuration. -/
  | unreadable
  /-- The user has no configuration directory. -/
  | noDirectory
  | refused (refusal : Refusal)
  deriving DecidableEq, Repr

/-- The text under which a failure is reported.  What the reader of a
configuration says of an unreadable one is left out: fixed words stand for
it. -/
def Failure.message : Failure -> String
  | .io cause => "IO error: " ++ cause.message
  | .unreadable => "Failed to parse config: not a valid configuration"
  | .noDirectory => "Could not determine the user configuration directory"
  | .refused refusal => refusal.message

/-- The variable that names the configuration file. -/
def pathVariable : String := "BENCH_RIPENV_CONFIG"

/-- The directory of a user's files of one kind: where a variable says, if
that is absolute, or else below the home directory. -/
def userDir?
    (named : String)
    (belowHome : String) : Action (Option Path) := do
  match ← Action.environment named with
  | some text =>
    if (Path.mk text).isAbsolute then return some ⟨text⟩ else fallback
  | none => fallback
where
  /-- The directory below the home directory. -/
  fallback : Action (Option Path) := do
    match ← Action.environment "HOME" with
    | none => return none
    | some home =>
      if home.isEmpty then return none
      else return some ((Path.mk home).join belowHome)

/-- The path of the configuration file. -/
def path? : Action (Except Failure Path) := do
  let named := Text.trim ((← Action.environment pathVariable).getD "")
  if named.isEmpty then
    match ← userDir? "XDG_CONFIG_HOME" ".config" with
    | none => return .error .noDirectory
    | some dir =>
      return .ok ((dir.join "bench-ripenv").join "bench-ripenv.toml")
  else return .ok ⟨named⟩

/-- Load the configuration of a file. -/
def loadFrom (path : Path) : Action (Except Failure Config) := do
  if ← Action.pathExists path then
    match ← Action.readText path with
    | .error cause => return .error (.io cause)
    | .ok text =>
      match ofText? text with
      | none => return .error .unreadable
      | some config => return .ok config
  else return .ok {}

/-- Save a configuration to a file, making the directories above it. -/
def saveTo
    (config : Config)
    (path : Path) : Action (Except Failure Unit) := do
  let made ← match path.parent? with
    | none => pure (.ok ())
    | some parent => Action.makeDirs parent
  match made with
  | .error cause => return .error (.io cause)
  | .ok () =>
    match ← Action.writeText path config.toText with
    | .error cause => return .error (.io cause)
    | .ok () => return .ok ()

/-- Load the configuration. -/
def load : Action (Except Failure Config) := do
  match ← path? with
  | .error failure => return .error failure
  | .ok path => loadFrom path

/-- Save a configuration, and tell where. -/
def save (config : Config) : Action (Except Failure Path) := do
  match ← path? with
  | .error failure => return .error failure
  | .ok path =>
    match ← config.saveTo path with
    | .error failure => return .error failure
    | .ok () => return .ok path

end Config
end LockBench
