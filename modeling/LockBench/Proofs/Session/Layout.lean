import LockBench.Proofs.Session.Directories
import LockBench.Proofs.Shell.Removal

/-!
# Preparations of a layout

The preparation before an operation is a list of removals.  A context has its
directories directly in the directory of the session, so what is removed for
it lies in its own two directories.  The removals do not get in each other's
way, except where the session's directory is reached by a way through the
virtual environment: once that is gone, the cache is not found.
-/

namespace LockBench

theorem Tool.isName_lockfileName (tool : Tool) :
    Path.IsName tool.lockfileName := by
  cases tool <;> decide

namespace StateLayout

/-! ## Removals -/

/-- The removal of the lockfile. -/
def lockfileRemoval (layout : StateLayout) : Shell.Removal :=
  ⟨false, layout.lockfile⟩

/-- The removal of the virtual environment. -/
def venvRemoval (layout : StateLayout) : Shell.Removal :=
  ⟨true, layout.venv⟩

/-- The removal of the cache. -/
def cacheRemoval (layout : StateLayout) : Shell.Removal :=
  ⟨true, layout.cacheDir⟩

/-- What is removed before an operation, in order. -/
def removals
    (layout : StateLayout)
    (operation : Operation) : List Shell.Removal :=
  (if operation.clearsLockfile then [layout.lockfileRemoval] else []) ++
    ((if operation.clearsVenv then [layout.venvRemoval] else []) ++
      ((if operation.clearsCache then [layout.cacheRemoval] else []) ++ []))

theorem mem_removals_iff
    (layout : StateLayout)
    (operation : Operation)
    (removal : Shell.Removal) :
    removal ∈ layout.removals operation ↔
      operation.clearsLockfile = true ∧ removal = layout.lockfileRemoval ∨
        operation.clearsVenv = true ∧ removal = layout.venvRemoval ∨
        operation.clearsCache = true ∧ removal = layout.cacheRemoval := by
  have mem_ite : ∀ (wanted : Bool) (other : Shell.Removal),
      removal ∈ (if wanted then [other] else []) ↔
        wanted = true ∧ removal = other := by
    intro wanted other
    cases wanted <;> simp
  simp only [removals, List.mem_append, mem_ite, List.not_mem_nil, or_false]

/-- The steps of a preparation are its removals. -/
theorem clearing_eq
    (layout : StateLayout)
    (operation : Operation) :
    layout.clearing operation =
      (layout.removals operation).map Shell.Removal.line := by
  have line_lockfile :
      removeFile layout.lockfile = layout.lockfileRemoval.line := rfl
  have line_venv : removeDir layout.venv = layout.venvRemoval.line := rfl
  have line_cache : removeDir layout.cacheDir = layout.cacheRemoval.line := rfl
  have map_ite : ∀ (wanted : Bool) (removal : Shell.Removal),
      (if wanted then [removal] else []).map Shell.Removal.line =
        if wanted then [removal.line] else [] := by
    intro wanted removal
    cases wanted <;> rfl
  simp only [clearing, removals, line_lockfile, line_venv, line_cache,
    List.map_append, map_ite, List.append_assoc, List.append_nil]

/-- There is no preparation exactly where everything is to be kept. -/
theorem prepare?_eq_none_iff
    (layout : StateLayout)
    (operation : Operation) :
    layout.prepare? operation = none ↔ operation.temperature = .noop := by
  have clearing_eq_nil_iff :
      layout.clearing operation = [] ↔ operation.temperature = .noop := by
    cases operation <;>
      simp [clearing, Operation.clearsLockfile, Operation.clearsVenv,
        Operation.clearsCache, Operation.temperature, Operation.step]
  rw [← clearing_eq_nil_iff, prepare?]
  split <;> simp_all

/-- The tree after the preparation before an operation, or `none` where it
fails. -/
def prepared?
    (layout : StateLayout)
    (operation : Operation)
    (workingDir : Location)
    (tree : FileTree) : Option FileTree :=
  match layout.prepare? operation with
  | none => some tree
  | some line => Shell.run? workingDir tree line

/-- A layout can be written in a line: its paths are absolute and hold no
NUL. -/
structure Writable (layout : StateLayout) : Prop where
  /-- The paths are absolute. -/
  absolute : layout.lockfile.isAbsolute = true ∧
    layout.venv.isAbsolute = true ∧ layout.cacheDir.isAbsolute = true
  /-- The paths hold no NUL. -/
  nulFree : Shell.NulFree layout.lockfile.text ∧
    Shell.NulFree layout.venv.text ∧ Shell.NulFree layout.cacheDir.text

namespace Writable

variable {layout : StateLayout}

theorem absolute_lockfileRemoval
    (writable : layout.Writable) :
    layout.lockfileRemoval.target.isAbsolute = true :=
  writable.absolute.1

theorem absolute_venvRemoval
    (writable : layout.Writable) :
    layout.venvRemoval.target.isAbsolute = true :=
  writable.absolute.2.1

theorem absolute_cacheRemoval
    (writable : layout.Writable) :
    layout.cacheRemoval.target.isAbsolute = true :=
  writable.absolute.2.2

variable {workingDir : Location} {tree : FileTree} {location : Location}

/-- Only the lockfile is removed with the lockfile. -/
theorem eq_of_removes_lockfile
    (writable : layout.Writable)
    (removes : layout.lockfileRemoval.Removes workingDir tree location) :
    location = layout.lockfile.location := by
  rw [Shell.Removal.removes_iff_of_absolute
    writable.absolute_lockfileRemoval] at removes
  simpa [Shell.Removal.Covers, lockfileRemoval] using removes.2

/-- What is removed with the virtual environment is part of it. -/
theorem below_of_removes_venv
    (writable : layout.Writable)
    (removes : layout.venvRemoval.Removes workingDir tree location) :
    layout.venv.location <+: location := by
  rw [Shell.Removal.removes_iff_of_absolute
    writable.absolute_venvRemoval] at removes
  exact removes.2

/-- What is removed with the cache is part of it. -/
theorem below_of_removes_cache
    (writable : layout.Writable)
    (removes : layout.cacheRemoval.Removes workingDir tree location) :
    layout.cacheDir.location <+: location := by
  rw [Shell.Removal.removes_iff_of_absolute
    writable.absolute_cacheRemoval] at removes
  exact removes.2

end Writable

/-- The line of a preparation carries out its removals. -/
theorem prepared?_eq
    {layout : StateLayout}
    (writable : layout.Writable)
    (operation : Operation)
    (workingDir : Location)
    (tree : FileTree) :
    layout.prepared? operation workingDir tree =
      Shell.Removal.performAll? workingDir tree
        (layout.removals operation) := by
  obtain ⟨nulFreeLockfile, nulFreeVenv, nulFreeCache⟩ := writable.nulFree
  rw [prepared?, prepare?, clearing_eq]
  cases removals_eq : layout.removals operation with
  | nil => rfl
  | cons removal rest =>
      have isRemoval : ∀ other ∈ removal :: rest,
          other = layout.lockfileRemoval ∨ other = layout.venvRemoval ∨
            other = layout.cacheRemoval := by
        intro other member
        rw [← removals_eq, mem_removals_iff] at member
        exact member.imp And.right (Or.imp And.right And.right)
      refine Shell.Removal.run?_lines (List.cons_ne_nil removal rest) ?_ ?_
        workingDir tree
      · intro other member
        obtain rfl | rfl | rfl := isRemoval other member
        · exact nulFreeLockfile
        · exact nulFreeVenv
        · exact nulFreeCache
      · intro other member
        obtain rfl | rfl | rfl := isRemoval other member
        · exact writable.absolute_lockfileRemoval
        · exact writable.absolute_venvRemoval
        · exact writable.absolute_cacheRemoval

/-! ## Layouts within a directory -/

/-- A layout lies in two directories directly below a directory. -/
structure Within
    (layout : StateLayout)
    (dir : Path)
    (work lock cache : String) : Prop where
  /-- The lockfile is in the first one. -/
  lockfile_eq : layout.lockfile = (dir.join work).join lock
  /-- So is the virtual environment. -/
  venv_eq : layout.venv = (dir.join work).join venvName
  /-- The cache is the second one. -/
  cacheDir_eq : layout.cacheDir = dir.join cache
  /-- All have names of their own. -/
  areNames : Path.IsName work ∧ Path.IsName lock ∧ Path.IsName cache
  /-- The lockfile is not the virtual environment. -/
  lock_ne_venv : lock ≠ venvName
  /-- The two directories are different. -/
  work_ne_cache : work ≠ cache

theorem isName_venvName : Path.IsName venvName := by
  decide

namespace Within

variable {layout : StateLayout} {dir : Path} {work lock cache : String}

/-- The location of an entry of the first directory. -/
theorem location_entry
    (within : layout.Within dir work lock cache)
    {name : String}
    (isName : Path.IsName name) :
    ((dir.join work).join name).location = dir.location ++ [work, name] := by
  rw [Path.location_join _ isName, Path.location_join dir within.areNames.1,
    List.append_assoc]
  rfl

/-- The way to an entry of the first directory. -/
theorem way_entry
    (within : layout.Within dir work lock cache)
    {name : String}
    (isName : Path.IsName name) :
    ((dir.join work).join name).way =
      dir.way ++ [dir.location, dir.location ++ [work]] := by
  rw [Path.way_join _ isName, Path.way_join dir within.areNames.1,
    Path.location_join dir within.areNames.1, List.append_assoc]
  rfl

theorem location_lockfile
    (within : layout.Within dir work lock cache) :
    layout.lockfile.location = dir.location ++ [work, lock] := by
  rw [within.lockfile_eq, within.location_entry within.areNames.2.1]

theorem location_venv
    (within : layout.Within dir work lock cache) :
    layout.venv.location = dir.location ++ [work, venvName] := by
  rw [within.venv_eq, within.location_entry isName_venvName]

theorem location_cacheDir
    (within : layout.Within dir work lock cache) :
    layout.cacheDir.location = dir.location ++ [cache] := by
  rw [within.cacheDir_eq, Path.location_join dir within.areNames.2.2]

theorem way_cacheDir
    (within : layout.Within dir work lock cache) :
    layout.cacheDir.way = dir.way ++ [dir.location] := by
  rw [within.cacheDir_eq, Path.way_join dir within.areNames.2.2]

/-- Below an absolute path without NUL, a layout can be written in a line. -/
theorem writable
    (within : layout.Within dir work lock cache)
    (absolute : dir.isAbsolute = true)
    (nulFree : Shell.NulFree dir.text) : layout.Writable := by
  obtain ⟨workIsName, lockIsName, cacheIsName⟩ := within.areNames
  have nulFreeWork := Shell.nulFree_join nulFree workIsName.2.1
  have absoluteWork := Path.isAbsolute_join absolute work
  constructor
  · rw [within.lockfile_eq, within.venv_eq, within.cacheDir_eq]
    exact ⟨Path.isAbsolute_join absoluteWork _,
      Path.isAbsolute_join absoluteWork _, Path.isAbsolute_join absolute _⟩
  · rw [within.lockfile_eq, within.venv_eq, within.cacheDir_eq]
    exact ⟨Shell.nulFree_join nulFreeWork lockIsName.2.1,
      Shell.nulFree_join nulFreeWork isName_venvName.2.1,
      Shell.nulFree_join nulFree cacheIsName.2.1⟩

end Within
end StateLayout

/-- Names directly below a location are told apart by what is below them. -/
theorem Location.eq_of_prefix
    {top location : Location}
    {name other : String}
    (below : top ++ [name] <+: location)
    (otherBelow : top ++ [other] <+: location) : name = other := by
  obtain ⟨rest, rfl⟩ := below
  obtain ⟨otherRest, equal⟩ := otherBelow
  simp only [List.append_assoc, List.append_cancel_left_eq,
    List.singleton_append, List.cons.injEq] at equal
  exact equal.1.symm

namespace Session

/-- The layout of a planned context lies in its two slots. -/
theorem within_planContext
    (tool : Tool)
    (dir : Path)
    {count index : Nat}
    (inRange : index < count)
    (binary : Path) :
    (StateLayout.of tool (planContext tool dir count index binary)).Within dir
      (Slot.name ⟨tool, index, false⟩ count) tool.lockfileName
      (Slot.name ⟨tool, index, true⟩ count) := by
  obtain ⟨workingDir_eq, cacheDir_eq⟩ :=
    dirs_planContext tool dir count index binary
  refine ⟨?_, ?_, cacheDir_eq, ⟨Slot.isName_name _ _, tool.isName_lockfileName,
    Slot.isName_name _ _⟩, ?_, ?_⟩
  · rw [StateLayout.of, workingDir_eq]
  · rw [StateLayout.of, workingDir_eq]
  · cases tool <;> decide
  · intro same
    have slot_eq := @Slot.name_injective ⟨tool, index, false⟩
      ⟨tool, index, true⟩ count count inRange inRange (fun _ => rfl) same
    cases slot_eq

end Session
end LockBench
