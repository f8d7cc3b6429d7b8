import LockBench.Failure
import LockBench.Host.Machine
import LockBench.Proofs.Host.Places

/-!
# Files that are written are read back

Whether a file can be written depends on its path and on what is there, and not
on what is written.  What is written is what the same path leads to afterwards,
since nothing on its way has changed.
-/

namespace LockBench

namespace FileTree

variable {tree after : FileTree} {workingDir location : Location} {path : Path}

/-- Where one content can be written any other one can, at the same place. -/
theorem write_eq_ok
    {content : ByteArray}
    (written : tree.write workingDir path content = .ok after) :
    ∃ location executable,
      tree.place workingDir path = .ok (some location) ∧
        tree.get? location ≠ some .directory ∧ path.asksDirectory = false ∧
        ∀ other, tree.write workingDir path other =
          .ok (tree.put location (.file other executable)) := by
  obtain ⟨location, takes⟩ := takesFile_of_change written
  have writes := fun other => takes.change_eq none fun _ => other
  match here_eq : tree.get? location with
  | none =>
      exact ⟨location, false, takes.placed, takes.noDirectory, takes.noSlash,
        fun other => by rw [write, writes, here_eq]; rfl⟩
  | some (.file _ executable) =>
      exact ⟨location, executable, takes.placed, takes.noDirectory,
        takes.noSlash, fun other => by rw [write, writes, here_eq]; rfl⟩
  | some .directory => exact absurd here_eq takes.noDirectory

/-- A path leads to what is put at its place. -/
theorem leads_put
    (placed : tree.place workingDir path = .ok (some location))
    (noDirectory : tree.get? location ≠ some .directory)
    (noSlash : path.asksDirectory = false)
    (content : ByteArray)
    (executable : Bool) :
    (tree.put location (.file content executable)).Leads workingDir path
      location (.file content executable) := by
  obtain ⟨placedStill, isPut⟩ :=
    place_put placed noDirectory (.file content executable)
  exact leads_of_place placedStill isPut fun _ => noSlash

end FileTree

/-! ## Runs on a machine -/

namespace Action

@[simp] theorem runOn_pure
    (machine : Machine)
    (result : α) : (pure result : Action α).runOn machine = (result, machine) :=
  rfl

theorem runOn_kind?
    (machine : Machine)
    (path : Path) :
    (kind? path).runOn machine =
      (match machine.tree.find machine.workingDir path with
        | .ok (_, node) => some node.kind
        | .error _ => none, machine) := rfl

theorem runOn_read
    (machine : Machine)
    (path : Path) :
    (read path).runOn machine =
      (machine.tree.read machine.workingDir path, machine) := rfl

theorem runOn_writeText
    (machine : Machine)
    (path : Path)
    (text : String) :
    (writeText path text).runOn machine =
      machine.keep
        (machine.tree.write machine.workingDir path text.toUTF8) := rfl

theorem runOn_makeDirs
    (machine : Machine)
    (path : Path) :
    (makeDirs path).runOn machine = machine.makeDirs path := rfl

theorem runOn_appendText
    (machine : Machine)
    (path : Path)
    (text : String) :
    (appendText path text).runOn machine =
      machine.keep
        (machine.tree.append machine.workingDir path text.toUTF8) := rfl

theorem runOn_removeFile
    (machine : Machine)
    (path : Path) :
    (removeFile path).runOn machine =
      machine.keep (machine.tree.removeFile machine.workingDir path) := rfl

/-- What follows an action runs on the machine that it leaves. -/
theorem runOn_bind
    (machine : Machine)
    (action : Action α)
    (next : α -> Action β) :
    (action >>= next).runOn machine =
      (next (action.runOn machine).1).runOn (action.runOn machine).2 := by
  simp only [runOn, interpret_bind]
  rfl

/-- What an action comes to may be of no interest. -/
theorem runOn_discard
    (machine : Machine)
    (action : Action α) :
    (discard action).runOn machine = ((), (action.runOn machine).2) := by
  change (action >>= fun _ => pure ()).runOn machine = _
  rw [runOn_bind, runOn_pure]

/-- A path leads somewhere where it is found. -/
theorem runOn_pathExists
    {machine : Machine}
    {path : Path}
    {location : Location}
    {node : Node}
    (leads : machine.tree.Leads machine.workingDir path location node) :
    (pathExists path).runOn machine = (true, machine) := by
  rw [← FileTree.find_eq_ok_iff] at leads
  rw [pathExists, runOn_bind, runOn_kind?, leads]
  rfl

/-- A path leads nowhere where it is not found. -/
theorem runOn_pathExists_of_nowhere
    {machine : Machine}
    {path : Path}
    (nowhere : ∀ location node,
      ¬machine.tree.Leads machine.workingDir path location node) :
    (pathExists path).runOn machine = (false, machine) := by
  simp only [← FileTree.find_eq_ok_iff] at nowhere
  rw [pathExists, runOn_bind, runOn_kind?]
  cases found : machine.tree.find machine.workingDir path with
  | error cause => rfl
  | ok reached => exact absurd found (nowhere reached.1 reached.2)

/-- A file is read as the text that it holds, if it holds one. -/
theorem runOn_readText_of_leads
    {machine : Machine}
    {path : Path}
    {location : Location}
    {content : ByteArray}
    {executable : Bool}
    (leads : machine.tree.Leads machine.workingDir path location
      (.file content executable)) :
    (readText path).runOn machine =
      (match String.fromUTF8? content with
        | some text => .ok text
        | none => .error .notText, machine) := by
  rw [← FileTree.find_eq_ok_iff] at leads
  have found : machine.tree.read machine.workingDir path = .ok content := by
    rw [FileTree.read, leads]
    rfl
  rw [readText, readTextAt, readAt, runOn_bind, runOn_read, found]
  dsimp only
  cases String.fromUTF8? content <;> rfl

/-- A file that holds a text is read as that text. -/
theorem runOn_readText
    {machine : Machine}
    {path : Path}
    {location : Location}
    {text : String}
    {executable : Bool}
    (leads : machine.tree.Leads machine.workingDir path location
      (.file text.toUTF8 executable)) :
    (readText path).runOn machine = (.ok text, machine) := by
  rw [runOn_readText_of_leads leads]
  simp only [String.toUTF8_eq_toByteArray, Text.fromUTF8?_toByteArray]

/-! ## Actions that may fail -/

theorem runOn_run_bind
    (machine : Machine)
    (action : ExceptT ε Action α)
    (next : α -> ExceptT ε Action β) :
    (action >>= next).run.runOn machine =
      match action.run.runOn machine with
      | (.error failure, after) => (.error failure, after)
      | (.ok value, after) => (next value).run.runOn after := by
  rw [ExceptT.run_bind, runOn_bind]
  rcases action.run.runOn machine with ⟨failure | value, after⟩ <;> rfl

theorem runOn_run_lift
    (machine : Machine)
    (action : Action α) :
    (liftM action : ExceptT ε Action α).run.runOn machine =
      (.ok (action.runOn machine).1, (action.runOn machine).2) := by
  change (action >>= fun value => pure (Except.ok value) :
    Action (Except ε α)).runOn machine = _
  rw [runOn_bind, runOn_pure]

theorem runOn_attempt
    (machine : Machine)
    (cause : ε -> Failure)
    (action : Action (Except ε α)) :
    (Attempt.lift cause action).run.runOn machine =
      ((action.runOn machine).1.mapError cause, (action.runOn machine).2) := by
  rw [Attempt.lift, ExceptT.run_mk, runOn_bind]
  rcases action.runOn machine with ⟨failure | value, after⟩ <;> rfl

end Action
end LockBench
