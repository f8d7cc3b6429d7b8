import LockBench.Proofs.Host.Written
import LockBench.Proofs.Session.Requests
import LockBench.Proofs.Session.Separation

/-!
# Notes leave other files as they are

A note writes to the console and to the end of the log.  A file at another
location than the log is found and holds what it held, and variables stay as
they are.
-/

namespace LockBench

namespace FileTree

variable {tree after : FileTree} {workingDir location : Location}
  {path other : Path}

/-- A file that is put at another location changes nothing that a path leads
to. -/
theorem Leads.of_putsFile
    {node : Node}
    (leads : tree.Leads workingDir path location node)
    (puts : PutsFile workingDir other tree after)
    (apart : other.locationFrom workingDir ≠ path.locationFrom workingDir) :
    after.Leads workingDir path location node := by
  obtain ⟨place, content, executable, placed, noDirectory, rfl⟩ := puts
  have place_eq : place = other.locationFrom workingDir :=
    place_eq_follow placed
  refine leads.congr ?_ ?_
  · intro earlier onWay
    apply get?_put_of_ne
    rintro rfl
    exact noDirectory (leads.passes earlier onWay)
  · apply get?_put_of_ne
    rw [leads.place_eq, place_eq]
    exact apart.symm

end FileTree

/-- What all answers to the requests of an action keep is kept by the whole of
it. -/
theorem Action.AsksOnly.runOn_keeps
    {asked : Request -> Prop}
    {invariant : Machine -> Prop}
    {action : Action α}
    (asks : action.AsksOnly asked)
    (kept : ∀ request, asked request -> ∀ machine, invariant machine ->
      invariant (machine.answer request).2)
    {machine : Machine}
    (holds : invariant machine) : invariant (action.runOn machine).2 := by
  induction action generalizing machine with
  | done result => exact holds
  | ask request next inductionHypothesis =>
      exact inductionHypothesis _ (asks.2 _) (kept request asks.1 machine holds)

namespace Machine

/-- What is found on a machine: its variables, where paths start, and what one
of them leads to. -/
structure Finds
    (environment : List (String × String))
    (workingDir : Location)
    (path : Path)
    (location : Location)
    (node : Node)
    (machine : Machine) : Prop where
  /-- The variables are these. -/
  environment_eq : machine.environment = environment
  /-- Relative paths start there. -/
  workingDir_eq : machine.workingDir = workingDir
  /-- The path leads to the node. -/
  leads : machine.tree.Leads workingDir path location node

variable {environment : List (String × String)}
  {workingDir location : Location} {path : Path} {node : Node}
  {machine : Machine} {journal : Journal}

/-- A request of a note leaves what a path leads to where the log is
elsewhere. -/
theorem Finds.answer
    (apart : ∀ log ∈ journal.file,
      log.locationFrom workingDir ≠ path.locationFrom workingDir)
    {request : Request}
    (asked : journal.Asks request)
    (finds : machine.Finds environment workingDir path location node) :
    (machine.answer request).2.Finds environment workingDir path location
      node := by
  cases asked with
  | clock => exact finds
  | append isFile content =>
      rename_i log
      obtain ⟨environment_eq, rfl, leads⟩ := finds
      rw [Machine.answer]
      cases appended : machine.tree.append machine.workingDir log content with
      | error cause => exact ⟨environment_eq, rfl, leads⟩
      | ok after =>
          exact ⟨environment_eq, rfl, leads.of_putsFile
            (FileTree.putsFile_of_append appended) (apart log isFile)⟩
  | print text => exact { finds with }
  | printError text => exact { finds with }

/-- A note leaves what a path leads to where the log is elsewhere. -/
theorem Finds.note
    (apart : ∀ log ∈ journal.file,
      log.locationFrom workingDir ≠ path.locationFrom workingDir)
    (entry : Entry)
    (finds : machine.Finds environment workingDir path location node) :
    ((journal.note entry).runOn machine).2.Finds environment workingDir path
      location node :=
  (asksOnly_note journal entry).runOn_keeps
    (fun _ asked _ finds => finds.answer apart asked) finds

end Machine
end LockBench
