import LockBench.Host.Action
import LockBench.Text.Blank
import LockBench.Text.Utf8

/-!
# Finding programs

A program is searched for in the directories of the search path.  A shim of
pyenv is replaced by the program that it stands for, since a shim looks that
program up again at every start and so distorts timings.
-/

namespace LockBench
namespace Discovery

/-- Whether a path leads to a regular file that may be executed. -/
def isProgram (path : Path) : Action Bool := do
  return (← Action.kind? path) = some (.file true)

/-- Whether a name has more than one component, so that it is not searched
for. -/
def isCompound (name : Path) : Bool :=
  let rooted := if name.isAbsolute ∨ name.parts.head? = some "." then 1 else 0
  1 < rooted + name.steps.length

/-- A path made absolute, without the parts that lead nowhere. -/
def absolute
    (workingDir : Path)
    (path : Path) : Path :=
  if path.isAbsolute then path
  else path.steps.foldl Path.join workingDir

/-- A directory of the search path with the home directory put in. -/
def expandHome
    (home : Option String)
    (dir : Path) : Path :=
  match dir.isAbsolute, dir.parts, home with
  | false, "~" :: _, some home => (dir.steps.drop 1).foldl Path.join ⟨home⟩
  | _, _, _ => dir

/-- The first of some paths that leads to a program. -/
def firstProgram? : List Path -> Action (Option Path)
  | [] => return none
  | path :: rest => do
    if ← isProgram path then return some path else firstProgram? rest

/-- The program of a name: the file that a compound name leads to, or the
first match in the directories of the search path. -/
def which? (name : String) : Action (Option Path) := do
  if isCompound ⟨name⟩ then
    firstProgram? [absolute (← Action.workingDir) ⟨name⟩]
  else
    match ← Action.environment "PATH" with
    | none => return none
    | some dirs =>
      let home ← Action.environment "HOME"
      firstProgram? ((Path.splitAt ':' dirs).map fun dir =>
        (expandHome home ⟨dir⟩).join name)

/-- Whether some characters hold a text. -/
def holds
    (text : List Char) : List Char -> Bool
  | [] => text.isEmpty
  | c :: rest => text.isPrefixOf (c :: rest) || holds text rest

/-- Whether a path leads to a shim of pyenv. -/
def isShim (path : Path) : Bool :=
  holds "pyenv/shims".toList path.text.toList

/-- The program that a shim stands for, as pyenv tells; the shim itself where
it tells nothing. -/
def behindShim
    (name : String)
    (shim : Path) : Action Path := do
  match ← Action.capture ⟨"pyenv", ["which", name], [], none⟩ with
  | .error _ => return shim
  | .ok captured =>
    let told := Text.trim (Text.decodeLossy captured.stdout)
    if captured.exit.succeeded ∧ told ≠ "" then return ⟨told⟩
    else return shim

/-- The binary of a tool's name, if there is one. -/
def findBinary? (name : String) : Action (Option Path) := do
  match ← which? name with
  | none => return none
  | some found =>
    if isShim found then return some (← behindShim name found)
    else return some found

/-- Why the timing program was not found. -/
inductive Failure
  | notFound
  | missing (path : Path)
  deriving DecidableEq, Repr

/-- The text under which a failure is reported. -/
def Failure.message : Failure -> String
  | .notFound =>
    "hyperfine is required but was not found. Install it with \x60cargo " ++
      "install hyperfine\x60 or \x60brew install hyperfine\x60"
  | .missing path =>
    "Configured hyperfine path does not exist: " ++ path.text

/-- The timing program: the one that was chosen, if it is there, or else the
first one on the search path. -/
def findHyperfine
    (chosen : Option Path) : Action (Except Failure Path) := do
  match chosen with
  | some path =>
    if ← Action.pathExists path then return .ok path
    else return .error (.missing path)
  | none =>
    match ← which? "hyperfine" with
    | some path => return .ok path
    | none => return .error .notFound

end Discovery
end LockBench
