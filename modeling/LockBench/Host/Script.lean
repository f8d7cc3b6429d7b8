import LockBench.Host.Machine

/-!
# Scripted programs

A scripted program answers from a list: its `n`-th run ends as the `n`-th item
says.  It writes fixed texts, and where it is told to export something it
writes that to every file that its arguments name for it.
-/

namespace LockBench

/-- A program that answers from a list. -/
structure Script where
  /-- How the runs end, in order; later runs succeed. -/
  exits : List Exit := []
  /-- What every run writes to its standard output. -/
  stdout : String := ""
  /-- What every run writes to its standard error. -/
  stderr : String := ""
  /-- What every run exports, if anything. -/
  exported : Option String := none
  deriving DecidableEq, Repr

namespace Script

/-- The option that names a file for the export. -/
def exportOption : String := "--export-json"

/-- The files that arguments name for the export. -/
def exportFiles : List String -> List Path
  | [] => []
  | [_] => []
  | option :: file :: rest =>
    if option = exportOption then ⟨file⟩ :: exportFiles (file :: rest)
    else exportFiles (file :: rest)

/-- Write the export to a file; a file that cannot be written is left. -/
def exportTo
    (call : Call)
    (text : String)
    (tree : FileTree)
    (file : Path) : FileTree :=
  match tree.write call.workingDir file text.toUTF8 with
  | .ok written => written
  | .error _ => tree

/-- The number of earlier runs of programs with the same name. -/
def earlierRuns
    (earlier : List Call)
    (call : Call) : Nat :=
  (earlier.filter fun other =>
    other.program.fileName? = call.program.fileName?).length

/-- What a scripted program does. -/
def behavior (script : Script) : Behavior := fun earlier call tree =>
  (⟨script.exits.getD (earlierRuns earlier call) (.code 0),
      script.stdout.toUTF8, script.stderr.toUTF8⟩,
    match script.exported with
    | none => tree
    | some text =>
      (exportFiles call.arguments).foldl (exportTo call text) tree)

end Script
end LockBench
