import LockBench.Host.FileTree
import LockBench.Text.Utf8

/-!
# An in-memory machine

A machine is a host made of plain data: a file tree, variables, what was
written to the console, and the processes that ran.  What a program does is a
function of its file's content, of how it is started, and of the files it
finds.  All names in the tree are texts, so that no other name is ever listed.
-/

namespace LockBench

/-- A process as it ran. -/
structure Call where
  /-- The path that was executed. -/
  program : Path
  /-- The arguments after the program's name. -/
  arguments : List String
  /-- Every variable of the process. -/
  environment : List (String × String)
  /-- The directory that it ran in. -/
  workingDir : Location
  deriving DecidableEq, Repr

/-- What a program does: from the calls before its own, its own call and the
files, to what it leaves and writes. -/
abbrev Behavior := List Call -> Call -> FileTree -> Captured × FileTree

/-- A host made of plain data. -/
structure Machine where
  /-- The files. -/
  tree : FileTree
  /-- The directory that relative paths start from. -/
  workingDir : Location
  /-- The environment. -/
  environment : List (String × String)
  /-- What an executable file of some content does. -/
  behavior : ByteArray -> Option Behavior
  /-- The processes that ran, in order. -/
  calls : List Call := []
  /-- What was written to the standard output. -/
  stdout : String := ""
  /-- What was written to the standard error. -/
  stderr : String := ""
  /-- The date and time of day. -/
  time : String
  /-- Endings of fresh names, in the order in which they are used. -/
  freshNames : List String

namespace Machine

/-! ## Files -/

/-- Keep a changed tree, if there is one. -/
def keep
    (machine : Machine) :
    Except OsError FileTree -> Except OsError Unit × Machine
  | .error cause => (.error cause, machine)
  | .ok tree => (.ok (), { machine with tree })

/-- Make a directory and those above it that are missing.  Those that could be
made stay where another one cannot be made. -/
def makeDirs
    (machine : Machine)
    (path : Path) : Except OsError Unit × Machine :=
  match machine.tree.makeDirs machine.workingDir path with
  | .ok tree => (.ok (), { machine with tree })
  | .error cause =>
    (.error cause, { machine with
      tree := machine.tree.leftByDirs machine.workingDir path })

/-- Make a directory with a fresh name. -/
def makeFreshDir
    (machine : Machine)
    (parent : Path)
    (stem : String) : Except OsError Path × Machine :=
  match machine.freshNames with
  | [] => (.error .fileExists, machine)
  | ending :: others =>
    let path := parent.join (stem ++ ending)
    match machine.tree.makeDir machine.workingDir path with
    | .error cause =>
      (.error (.other (cause.message ++ " at path \"" ++ path.text ++ "\"")),
        { machine with freshNames := others })
    | .ok tree => (.ok path, { machine with tree, freshNames := others })

/-! ## Processes -/

/-- Variables with one of them set. -/
def setVariable
    (environment : List (String × String))
    (setting : String × String) : List (String × String) :=
  environment.filter (·.1 ≠ setting.1) ++ [setting]

/-- Check that a path leads to a program, for a process in a directory. -/
def programAt
    (machine : Machine)
    (workingDir : Location)
    (path : Path) : Except OsError Behavior := do
  match ← machine.tree.find workingDir path with
  | (_, .file content true) =>
    match machine.behavior content with
    | some behavior => return behavior
    | none => .error (.other "Exec format error (os error 8)")
  | _ => .error .permissionDenied

/-- Look for a program in the directories of the search path.  The error of a
file that may not be executed outlasts the search. -/
def search
    (machine : Machine)
    (workingDir : Location)
    (name : String)
    (verdict : OsError) : List String -> Except OsError (Path × Behavior)
  | [] => .error verdict
  | dir :: rest =>
    let path : Path := if dir.isEmpty then ⟨name⟩ else (Path.mk dir).join name
    match machine.programAt workingDir path with
    | .ok behavior => .ok (path, behavior)
    | .error .permissionDenied =>
      machine.search workingDir name .permissionDenied rest
    | .error .noSuchFile => machine.search workingDir name verdict rest
    | .error .notADirectory => machine.search workingDir name verdict rest
    | .error cause => .error cause

/-- The directories of the search path. -/
def searchPath (machine : Machine) : List String :=
  Path.splitAt ':' ((machine.environment.lookup "PATH").getD "/bin:/usr/bin")

/-- The program that a name stands for, for a process in a directory. -/
def findProgram
    (machine : Machine)
    (workingDir : Location)
    (name : String) : Except OsError (Path × Behavior) :=
  if name.isEmpty then .error .noSuchFile
  else if name.toList.contains '/' then
    (machine.programAt workingDir ⟨name⟩).map (⟨name⟩, ·)
  else if FileTree.nameLimit < name.utf8ByteSize then .error .nameTooLong
  else machine.search workingDir name .noSuchFile machine.searchPath

/-- Whether some text of a launch holds a NUL character. -/
def holdsNul (launch : Launch) : Bool :=
  (launch.program :: launch.arguments ++
    launch.environment.flatMap (fun (name, value) => [name, value]) ++
    (launch.workingDir.map Path.text).toList).any
      fun text => text.toList.contains '\x00'

/-- Run a process to its end. -/
def run
    (machine : Machine)
    (launch : Launch) : Except OsError (Captured × Machine) := do
  if holdsNul launch then .error .nulInArgument
  let workingDir ← match launch.workingDir with
    | none => .ok machine.workingDir
    | some path =>
      match machine.tree.find machine.workingDir path with
      | .ok (location, .directory) => .ok location
      | .ok (_, .file _ _) => .error .notADirectory
      | .error cause => .error cause
  let (program, behavior) ← machine.findProgram workingDir launch.program
  let call : Call :=
    { program, workingDir
      arguments := launch.arguments
      environment := launch.environment.foldl setVariable machine.environment }
  let (captured, tree) := behavior machine.calls call machine.tree
  return (captured, { machine with tree, calls := machine.calls ++ [call] })

/-! ## Answers -/

/-- The machine after more was written to its console. -/
def wrote
    (machine : Machine)
    (stdout stderr : String) : Machine :=
  { machine with
    stdout := machine.stdout ++ stdout
    stderr := machine.stderr ++ stderr }

/-- The answer to a request, and the machine after it. -/
def answer
    (machine : Machine) : (request : Request) -> request.Answer × Machine
  | .variable name => (machine.environment.lookup name, machine)
  | .workingDir => (machine.workingDir.path, machine)
  | .kind path =>
    (match machine.tree.find machine.workingDir path with
      | .ok (_, node) => some node.kind
      | .error _ => none, machine)
  | .rawKind _ => (none, machine)
  | .read path => (machine.tree.read machine.workingDir path, machine)
  | .rawRead _ => (.error .noSuchFile, machine)
  | .write path content =>
    machine.keep (machine.tree.write machine.workingDir path content)
  | .append path content =>
    machine.keep (machine.tree.append machine.workingDir path content)
  | .copy source target =>
    machine.keep (machine.tree.copy machine.workingDir source target)
  | .makeDirs path => machine.makeDirs path
  | .entries path =>
    ((machine.tree.entries machine.workingDir path).map (List.map .text),
      machine)
  | .removeFile path =>
    machine.keep (machine.tree.removeFile machine.workingDir path)
  | .makeFreshDir parent stem => machine.makeFreshDir parent stem
  | .removeTree path =>
    ((), { machine with
      tree := machine.tree.removeTree machine.workingDir path })
  | .capture launch =>
    match machine.run launch with
    | .error cause => (.error cause, machine)
    | .ok (captured, after) => (.ok captured, after)
  | .attend launch =>
    match machine.run launch with
    | .error cause => (.error cause, machine)
    | .ok (captured, after) =>
      (.ok captured.exit,
        after.wrote (Text.decodeLossy captured.stdout)
          (Text.decodeLossy captured.stderr))
  | .clock => (machine.time, machine)
  | .print text => ((), machine.wrote text "")
  | .printError text => ((), machine.wrote "" text)

end Machine

/-- Run an action on a machine. -/
def Action.runOn
    (machine : Machine)
    (action : Action α) : α × Machine :=
  (action.interpret (m := StateM Machine) fun request machine =>
    machine.answer request).run machine

end LockBench
