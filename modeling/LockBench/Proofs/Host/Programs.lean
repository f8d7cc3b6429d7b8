import LockBench.Host.Machine
import LockBench.Proofs.Host.Walk

/-!
# The files that processes run

A process runs a file.  Where its program is named with a slash, that is the
file which the name leads to from the directory of the process, whatever the
search path is.  Any other program is found in a directory of the search path,
and what its name leads to from elsewhere plays no part.
-/

namespace LockBench
namespace Machine

/-- A path names a program from a directory: it leads to a file that may be
executed, and the machine can run what is in it. -/
def NamesProgram
    (machine : Machine)
    (dir : Location)
    (path : Path)
    (location : Location) : Prop :=
  ∃ content behavior,
    machine.tree.Leads dir path location (.file content true) ∧
      machine.behavior content = some behavior

/-- A process runs in a directory, which is that of the machine unless it has
one of its own. -/
def RunsIn
    (machine : Machine)
    (launch : Launch)
    (dir : Location) : Prop :=
  match launch.workingDir with
  | none => dir = machine.workingDir
  | some path => machine.tree.Leads machine.workingDir path dir .directory

/-- A process is a run of the file at a location: the call that is recorded for
it has a path that leads to that file from its directory, and what it writes
and leaves is what a program of that content does. -/
def Executes
    (machine : Machine)
    (launch : Launch)
    (location : Location) : Prop :=
  ∃ captured after call content behavior,
    machine.run launch = .ok (captured, after) ∧
      after.calls = machine.calls ++ [call] ∧
      machine.tree.Leads call.workingDir call.program location
        (.file content true) ∧
      machine.behavior content = some behavior ∧
      behavior machine.calls call machine.tree = (captured, after.tree)

variable {machine : Machine} {launch : Launch} {dir location : Location}
  {path program : Path} {behavior : Behavior} {name : String}

/-! ## Finding programs -/

theorem programAt_eq_ok_iff :
    machine.programAt dir path = .ok behavior ↔
      ∃ location content,
        machine.tree.Leads dir path location (.file content true) ∧
          machine.behavior content = some behavior := by
  simp only [← FileTree.find_eq_ok_iff, programAt]
  cases machine.tree.find dir path with
  | error cause => simp [bind, Except.bind]
  | ok found =>
      obtain ⟨location, _ | ⟨content, _ | _⟩⟩ := found
      · simp [bind, Except.bind]
      · simp [bind, Except.bind]
      · cases behavior_eq : machine.behavior content with
        | none => simp [bind, Except.bind, behavior_eq]
        | some known =>
            simp only [bind, Except.bind, behavior_eq, pure, Except.pure,
              Except.ok.injEq, Prod.mk.injEq, Node.file.injEq, and_true]
            constructor
            · rintro rfl
              exact ⟨location, content, ⟨rfl, rfl⟩, behavior_eq⟩
            · rintro ⟨_, _, ⟨rfl, rfl⟩, known_eq⟩
              exact Option.some.inj (behavior_eq.symm.trans known_eq)

/-- What a path leads to from a directory is one node at one location. -/
theorem leads_unique
    {tree : FileTree}
    {place other : Location}
    {node otherNode : Node}
    (leads : tree.Leads dir path place node)
    (otherLeads : tree.Leads dir path other otherNode) :
    place = other ∧ node = otherNode := by
  obtain rfl : place = other :=
    leads.place_eq.trans otherLeads.place_eq.symm
  exact ⟨rfl, Option.some.inj (leads.present.symm.trans otherLeads.present)⟩

/-- The path under which a program is looked for in a directory of the search
path. -/
def searched (name entry : String) : Path :=
  if entry.isEmpty then ⟨name⟩ else (Path.mk entry).join name

/-- What a search finds is a program in one of the directories. -/
theorem search_eq_ok
    {verdict : OsError}
    {entries : List String}
    (found : machine.search dir name verdict entries =
      .ok (program, behavior)) :
    ∃ entry ∈ entries, program = searched name entry ∧
      machine.programAt dir program = .ok behavior := by
  induction entries generalizing verdict with
  | nil => cases found
  | cons entry rest inductionHypothesis =>
      have further : ∀ {other : OsError},
          machine.search dir name other rest = .ok (program, behavior) ->
            ∃ later ∈ entry :: rest, program = searched name later ∧
              machine.programAt dir program = .ok behavior := by
        intro other foundLater
        obtain ⟨later, isIn, isFound⟩ := inductionHypothesis foundLater
        exact ⟨later, List.mem_cons_of_mem entry isIn, isFound⟩
      rw [search] at found
      split at found
      · rename_i isProgram
        cases found
        exact ⟨entry, List.mem_cons_self, rfl, isProgram⟩
      · exact further found
      · exact further found
      · exact further found
      · cases found

/-- A name with a slash is used as a path. -/
theorem findProgram_of_slash
    (slash : '/' ∈ name.toList) :
    machine.findProgram dir name =
      (machine.programAt dir ⟨name⟩).map (⟨name⟩, ·) := by
  have notEmpty : name.isEmpty = false := by
    rw [Bool.eq_false_iff]
    intro isEmpty
    obtain rfl : name = "" := by simpa using isEmpty
    simp at slash
  simp [findProgram, notEmpty, slash]

/-- A program that is found is one at the path that is recorded for it, and
without a slash in its name that path is in a directory of the search path. -/
theorem findProgram_eq_ok
    (found : machine.findProgram dir name = .ok (program, behavior)) :
    machine.programAt dir program = .ok behavior ∧
      ('/' ∉ name.toList -> ∃ entry ∈ machine.searchPath,
        program = searched name entry) := by
  by_cases slash : '/' ∈ name.toList
  · refine ⟨?_, fun noSlash => absurd slash noSlash⟩
    rw [findProgram_of_slash slash] at found
    cases isProgram : machine.programAt dir ⟨name⟩ with
    | error cause =>
        rw [isProgram] at found
        cases found
    | ok known =>
        rw [isProgram] at found
        cases found
        exact isProgram
  · have searches : machine.search dir name .noSuchFile machine.searchPath =
        .ok (program, behavior) := by
      rw [findProgram] at found
      split at found
      · cases found
      · rw [if_neg (by simpa using slash)] at found
        split at found
        · cases found
        · exact found
    obtain ⟨entry, isIn, program_eq, isProgram⟩ := search_eq_ok searches
    exact ⟨isProgram, fun _ => ⟨entry, isIn, program_eq⟩⟩

/-! ## Running them -/

/-- The call that is recorded for a process. -/
def callOf
    (machine : Machine)
    (launch : Launch)
    (dir : Location)
    (program : Path) : Call where
  program := program
  arguments := launch.arguments
  environment := launch.environment.foldl setVariable machine.environment
  workingDir := dir

/-- What a process writes, and the machine after it, once its directory and
its program are found. -/
def ranAs
    (machine : Machine)
    (launch : Launch)
    (dir : Location)
    (found : Path × Behavior) : Captured × Machine :=
  let call := machine.callOf launch dir found.1
  let (captured, tree) := found.2 machine.calls call machine.tree
  (captured, { machine with tree, calls := machine.calls ++ [call] })

/-- A process can be run where none of its texts holds NUL, its directory is
there, and its program is found. -/
theorem run_eq_ok_iff
    {ran : Captured × Machine} :
    machine.run launch = .ok ran ↔
      holdsNul launch = false ∧ ∃ dir found,
        machine.RunsIn launch dir ∧
          machine.findProgram dir launch.program = .ok found ∧
          machine.ranAs launch dir found = ran := by
  have fromDir : ∀ dir,
      ((machine.findProgram dir launch.program >>= fun found =>
          pure (machine.ranAs launch dir found)) = .ok ran ↔
        ∃ found, machine.findProgram dir launch.program = .ok found ∧
          machine.ranAs launch dir found = ran) := by
    intro dir
    cases machine.findProgram dir launch.program <;>
      simp [bind, Except.bind, pure, Except.pure]
  rw [run]
  cases holds : holdsNul launch with
  | true => simp [bind, Except.bind]
  | false =>
  simp only [RunsIn, true_and]
  cases launch.workingDir with
  | none =>
      refine (fromDir machine.workingDir).trans ?_
      simp
  | some path =>
      simp only [← FileTree.find_eq_ok_iff]
      cases machine.tree.find machine.workingDir path with
      | error cause => simp [bind, Except.bind]
      | ok reached =>
          obtain ⟨location, _ | ⟨content, executable⟩⟩ := reached
          · refine (fromDir location).trans ?_
            simp
          · simp [bind, Except.bind]

/-- A process is a run of the file that the path of its program, as it is
found, leads to from its directory. -/
theorem executes_iff :
    machine.Executes launch location ↔
      holdsNul launch = false ∧ ∃ dir found,
        machine.RunsIn launch dir ∧
          machine.findProgram dir launch.program = .ok found ∧
          machine.NamesProgram dir found.1 location := by
  constructor
  · rintro ⟨captured, after, call, content, known, ran, calls_eq, leads,
      behavior_eq, -⟩
    obtain ⟨noNul, dir, found, runsIn, isFound, ran_eq⟩ :=
      run_eq_ok_iff.mp ran
    obtain rfl : (machine.ranAs launch dir found).2 = after :=
      congrArg Prod.snd ran_eq
    obtain rfl : machine.callOf launch dir found.1 = call :=
      List.singleton_inj.mp (List.append_cancel_left calls_eq)
    exact ⟨noNul, dir, found, runsIn, isFound, content, known, leads,
      behavior_eq⟩
  · rintro ⟨noNul, dir, ⟨program, behavior⟩, runsIn, isFound, content, known,
      leads, known_eq⟩
    -- What the search found at the path is what the path names.
    obtain ⟨place, text, placeLeads, behavior_eq⟩ :=
      programAt_eq_ok_iff.mp (findProgram_eq_ok isFound).1
    obtain ⟨rfl, sameNode⟩ := leads_unique leads placeLeads
    cases sameNode
    exact ⟨_, _, machine.callOf launch dir program, content, behavior,
      run_eq_ok_iff.mpr
        ⟨noNul, dir, (program, behavior), runsIn, isFound, rfl⟩,
      rfl, leads, behavior_eq, rfl⟩

/-- A program that is named with a slash is what its name leads to from the
directory of the process. -/
theorem executes_iff_of_slash
    (slash : '/' ∈ launch.program.toList) :
    machine.Executes launch location ↔
      holdsNul launch = false ∧ ∃ dir, machine.RunsIn launch dir ∧
        machine.NamesProgram dir ⟨launch.program⟩ location := by
  rw [executes_iff]
  refine and_congr_right fun _ => exists_congr fun dir => ?_
  constructor
  · rintro ⟨found, runsIn, isFound, names⟩
    rw [findProgram_of_slash slash] at isFound
    cases isProgram : machine.programAt dir ⟨launch.program⟩ with
    | error cause =>
        rw [isProgram] at isFound
        cases isFound
    | ok known =>
        rw [isProgram] at isFound
        cases isFound
        exact ⟨runsIn, names⟩
  · rintro ⟨runsIn, content, known, leads, known_eq⟩
    refine ⟨(⟨launch.program⟩, known), runsIn, ?_, content, known, leads,
      known_eq⟩
    rw [findProgram_of_slash slash,
      programAt_eq_ok_iff.mpr ⟨location, content, leads, known_eq⟩]
    rfl

/-- A program that is named without a slash is one in a directory of the
search path. -/
theorem executes_of_search
    (noSlash : '/' ∉ launch.program.toList)
    (executes : machine.Executes launch location) :
    ∃ dir, machine.RunsIn launch dir ∧ ∃ entry ∈ machine.searchPath,
      machine.NamesProgram dir (searched launch.program entry) location := by
  obtain ⟨-, dir, found, runsIn, isFound, names⟩ := executes_iff.mp executes
  obtain ⟨entry, isIn, program_eq⟩ := (findProgram_eq_ok isFound).2 noSlash
  exact ⟨dir, runsIn, entry, isIn, program_eq ▸ names⟩

end Machine
end LockBench
