import LockBench.Proofs.Session.Layout
import LockBench.Session.Seeding

/-!
# What a preparation leaves

A preparation succeeds on every tree in which the lockfile is not a directory.
It takes away what the operation must not find and nothing else, in the whole
tree, and doing it again changes nothing.  Only a directory that is reached by
a way through the virtual environment is special: once the virtual environment
is gone, the cache is not found.
-/

namespace LockBench

namespace StateLayout

/-- The virtual environment is cleared, and the way to a directory leads
through it. -/
def CutsOff
    (layout : StateLayout)
    (operation : Operation)
    (dir : Path)
    (workingDir : Location)
    (tree : FileTree) : Prop :=
  operation.clearsVenv = true ∧
    ∃ earlier ∈ dir.way, layout.venvRemoval.Removes workingDir tree earlier

/-- A location is cleared before an operation, for a layout in a directory. -/
def Clears
    (layout : StateLayout)
    (operation : Operation)
    (dir : Path)
    (workingDir : Location)
    (tree : FileTree)
    (location : Location) : Prop :=
  (operation.clearsLockfile = true ∧
      layout.lockfileRemoval.Removes workingDir tree location ∨
    operation.clearsVenv = true ∧
      layout.venvRemoval.Removes workingDir tree location) ∨
    operation.clearsCache = true ∧
      ¬layout.CutsOff operation dir workingDir tree ∧
      layout.cacheRemoval.Removes workingDir tree location

namespace Within

variable {layout : StateLayout} {dir : Path} {work lock cache : String}
  {operation : Operation} {workingDir : Location} {tree : FileTree}

/-! ## The removals one by one -/

/-- The lockfile may be removed where it is not a directory. -/
theorem permitted_lockfile
    (within : layout.Within dir work lock cache)
    (absolute : dir.isAbsolute = true)
    (noDirectory : tree.isDirectory workingDir layout.lockfile = false) :
    layout.lockfileRemoval.Permitted workingDir tree := by
  intro place node leads
  have absoluteLockfile : layout.lockfile.isAbsolute = true := by
    rw [within.lockfile_eq]
    exact Path.isAbsolute_join (Path.isAbsolute_join absolute work) lock
  constructor
  · rw [leads.place_eq_location absoluteLockfile]
    simp [lockfileRemoval, within.location_lockfile]
  · rintro - rfl
    have isDirectory := (tree.isDirectory_iff workingDir layout.lockfile).mpr
      ⟨place, leads⟩
    simp [noDirectory] at isDirectory

theorem permitted_venv
    (within : layout.Within dir work lock cache)
    (writable : layout.Writable)
    (workingDir : Location)
    (tree : FileTree) :
    layout.venvRemoval.Permitted workingDir tree := by
  refine Shell.Removal.permitted_of_recursive rfl
    writable.absolute_venvRemoval ?_ workingDir tree
  simp [venvRemoval, within.location_venv]

theorem permitted_cache
    (within : layout.Within dir work lock cache)
    (writable : layout.Writable)
    (workingDir : Location)
    (tree : FileTree) :
    layout.cacheRemoval.Permitted workingDir tree := by
  refine Shell.Removal.permitted_of_recursive rfl
    writable.absolute_cacheRemoval ?_ workingDir tree
  simp [cacheRemoval, within.location_cacheDir]

/-- Removing the lockfile does not keep the virtual environment from being
removed. -/
theorem venv_removes_iff
    (within : layout.Within dir work lock cache)
    (writable : layout.Writable)
    (permitted : layout.lockfileRemoval.Permitted workingDir tree)
    {wanted : Prop}
    {first : FileTree}
    (pruned : tree.Pruned (fun location => wanted ∧
      layout.lockfileRemoval.Removes workingDir tree location) first)
    (location : Location) :
    layout.venvRemoval.Removes workingDir first location ↔
      layout.venvRemoval.Removes workingDir tree location := by
  have absolute := writable.absolute_venvRemoval
  rw [Shell.Removal.removes_iff_of_absolute absolute,
    Shell.Removal.removes_iff_of_absolute absolute]
  refine and_congr_left fun _ => ?_
  rw [pruned.reaches_iff_of_absolute absolute]
  refine and_iff_left_of_imp fun reaches => ⟨?_, ?_⟩
  · rintro ⟨_, removes⟩
    have same : layout.venv.location = layout.lockfile.location :=
      writable.eq_of_removes_lockfile removes
    rw [within.location_venv, within.location_lockfile] at same
    simp only [List.append_cancel_left_eq, List.cons.injEq, true_and,
      and_true] at same
    exact within.lock_ne_venv same.symm
  · rintro earlier onWay ⟨_, removes⟩
    exact permitted.not_removes_of_mem_way rfl absolute reaches onWay removes

/-- Removing the lockfile and the virtual environment keeps the cache from
being removed only where it is cut off. -/
theorem cache_removes_iff
    (within : layout.Within dir work lock cache)
    (writable : layout.Writable)
    (permitted : layout.lockfileRemoval.Permitted workingDir tree)
    {second : FileTree}
    (pruned : tree.Pruned (fun location =>
      operation.clearsLockfile = true ∧
          layout.lockfileRemoval.Removes workingDir tree location ∨
        operation.clearsVenv = true ∧
          layout.venvRemoval.Removes workingDir tree location) second)
    (location : Location) :
    layout.cacheRemoval.Removes workingDir second location ↔
      ¬layout.CutsOff operation dir workingDir tree ∧
        layout.cacheRemoval.Removes workingDir tree location := by
  have absolute := writable.absolute_cacheRemoval
  rw [Shell.Removal.removes_iff_of_absolute absolute,
    Shell.Removal.removes_iff_of_absolute absolute,
    pruned.reaches_iff_of_absolute absolute]
  have way_eq : layout.cacheRemoval.target.way = dir.way ++ [dir.location] :=
    within.way_cacheDir
  constructor
  · rintro ⟨⟨reaches, _, wayKept⟩, covers⟩
    refine ⟨?_, reaches, covers⟩
    rintro ⟨wanted, earlier, onWay, removes⟩
    refine wayKept earlier ?_ (.inr ⟨wanted, removes⟩)
    rw [way_eq]
    exact List.mem_append_left _ onWay
  · rintro ⟨notCutOff, reaches, covers⟩
    -- The cache and its directory are not below the virtual environment.
    have above : ∀ {shorter : Location},
        shorter.length ≤ dir.location.length + 1 ->
          ¬layout.venvRemoval.Removes workingDir tree shorter := by
      intro shorter short removes
      have length_le := (writable.below_of_removes_venv removes).length_le
      rw [within.location_venv, List.length_append] at length_le
      simp only [List.length_cons, List.length_nil] at length_le
      omega
    refine ⟨⟨reaches, ?_, ?_⟩, covers⟩
    · rintro (⟨_, removes⟩ | ⟨_, removes⟩)
      · have same : layout.cacheDir.location = layout.lockfile.location :=
          writable.eq_of_removes_lockfile removes
        rw [within.location_cacheDir, within.location_lockfile] at same
        simp at same
      · refine above ?_ removes
        simp [cacheRemoval, within.location_cacheDir]
    · intro earlier onWay
      rintro (⟨_, removes⟩ | ⟨wanted, removes⟩)
      · exact permitted.not_removes_of_mem_way rfl absolute reaches onWay
          removes
      · rw [way_eq, List.mem_append, List.mem_singleton] at onWay
        rcases onWay with onDirWay | rfl
        · exact notCutOff ⟨wanted, earlier, onDirWay, removes⟩
        · exact above (Nat.le_succ _) removes

/-- A way without double dots is not cut off. -/
theorem not_cutsOff
    (within : layout.Within dir work lock cache)
    (writable : layout.Writable)
    (downward : ".." ∉ dir.steps)
    (operation : Operation)
    (workingDir : Location)
    (tree : FileTree) :
    ¬layout.CutsOff operation dir workingDir tree := by
  rintro ⟨_, earlier, onWay, removes⟩
  have length_le := (writable.below_of_removes_venv removes).length_le
  have length_lt : earlier.length < dir.location.length :=
    Location.length_lt_of_mem_passed downward onWay
  rw [within.location_venv, List.length_append] at length_le
  omega

/-! ## The preparation as a whole -/

/-- A preparation succeeds and takes away what it clears and nothing else. -/
theorem prepared?_eq_some
    (within : layout.Within dir work lock cache)
    (absolute : dir.isAbsolute = true)
    (nulFree : Shell.NulFree dir.text)
    (noDirectory : tree.isDirectory workingDir layout.lockfile = false)
    (operation : Operation) :
    ∃ after, layout.prepared? operation workingDir tree = some after ∧
      tree.Pruned (layout.Clears operation dir workingDir tree) after := by
  have writable := within.writable absolute nulFree
  have permitted := within.permitted_lockfile absolute noDirectory
  obtain ⟨first, prunedFirst, performedFirst⟩ :=
    Shell.Removal.performAll?_ite_append operation.clearsLockfile permitted
  obtain ⟨second, prunedSecond, performedSecond⟩ :=
    Shell.Removal.performAll?_ite_append operation.clearsVenv
      (within.permitted_venv writable workingDir first)
  have prunedBoth := prunedFirst.trans (prunedSecond.congr fun location =>
    and_congr_right fun _ => within.venv_removes_iff writable permitted
      prunedFirst location)
  obtain ⟨third, prunedThird, performedThird⟩ :=
    Shell.Removal.performAll?_ite_append operation.clearsCache
      (within.permitted_cache writable workingDir second)
  refine ⟨third, ?_, prunedBoth.trans (prunedThird.congr fun location =>
    and_congr_right fun _ => within.cache_removes_iff writable permitted
      prunedBoth location)⟩
  rw [prepared?_eq writable, removals, performedFirst, performedSecond,
    performedThird]
  rfl

/-- Nothing that is aimed at is left by a preparation. -/
theorem not_reaches_of_pruned
    (within : layout.Within dir work lock cache)
    (writable : layout.Writable)
    {after : FileTree}
    (pruned : tree.Pruned (layout.Clears operation dir workingDir tree) after)
    {removal : Shell.Removal}
    (wanted : removal ∈ layout.removals operation) :
    ¬after.Reaches workingDir removal.target := by
  have absolute : removal.target.isAbsolute = true := by
    rw [mem_removals_iff] at wanted
    rcases wanted with ⟨_, rfl⟩ | ⟨_, rfl⟩ | ⟨_, rfl⟩
    · exact writable.absolute_lockfileRemoval
    · exact writable.absolute_venvRemoval
    · exact writable.absolute_cacheRemoval
  rw [pruned.reaches_iff_of_absolute absolute]
  rintro ⟨reaches, isKept, wayKept⟩
  have removes : removal.Removes workingDir tree removal.target.location :=
    (Shell.Removal.removes_iff_of_absolute absolute _ _ _).mpr
      ⟨reaches, removal.covers_target⟩
  rw [mem_removals_iff] at wanted
  rcases wanted with ⟨clears, rfl⟩ | ⟨clears, rfl⟩ | ⟨clears, rfl⟩
  · exact isKept (.inl (.inl ⟨clears, removes⟩))
  · exact isKept (.inl (.inr ⟨clears, removes⟩))
  · by_cases cutsOff : layout.CutsOff operation dir workingDir tree
    · obtain ⟨clearsVenv, earlier, onWay, removesEarlier⟩ := cutsOff
      refine wayKept earlier ?_ (.inl (.inr ⟨clearsVenv, removesEarlier⟩))
      have way_eq : layout.cacheRemoval.target.way =
          dir.way ++ [dir.location] := within.way_cacheDir
      rw [way_eq]
      exact List.mem_append_left _ onWay
    · exact isKept (.inr ⟨clears, cutsOff, removes⟩)

/-- A preparation after itself changes nothing. -/
theorem prepared?_again
    (within : layout.Within dir work lock cache)
    (absolute : dir.isAbsolute = true)
    (nulFree : Shell.NulFree dir.text)
    {after : FileTree}
    (pruned : tree.Pruned (layout.Clears operation dir workingDir tree) after) :
    layout.prepared? operation workingDir after = some after := by
  have writable := within.writable absolute nulFree
  rw [prepared?_eq writable]
  exact Shell.Removal.performAll?_of_missing fun removal wanted =>
    within.not_reaches_of_pruned writable pruned wanted

/-- What is cleared lies in one of the two directories: it is the lockfile or
part of the virtual environment, or it is part of the cache. -/
theorem location_of_clears
    (within : layout.Within dir work lock cache)
    (writable : layout.Writable)
    {location : Location}
    (clears : layout.Clears operation dir workingDir tree location) :
    operation.clearsLockfile = true ∧
        location = dir.location ++ [work, lock] ∨
      operation.clearsVenv = true ∧
        dir.location ++ [work, venvName] <+: location ∨
      operation.clearsCache = true ∧ dir.location ++ [cache] <+: location := by
  rcases clears with (⟨wanted, removes⟩ | ⟨wanted, removes⟩) |
    ⟨wanted, _, removes⟩
  · rw [← within.location_lockfile]
    exact .inl ⟨wanted, writable.eq_of_removes_lockfile removes⟩
  · rw [← within.location_venv]
    exact .inr (.inl ⟨wanted, writable.below_of_removes_venv removes⟩)
  · rw [← within.location_cacheDir]
    exact .inr (.inr ⟨wanted, writable.below_of_removes_cache removes⟩)

/-- What is kept in the first directory is not cleared. -/
theorem not_clears_entry
    (within : layout.Within dir work lock cache)
    (writable : layout.Writable)
    {name : String}
    (notVenv : name ≠ venvName)
    (isKept : name = lock -> operation.clearsLockfile = false) :
    ¬layout.Clears operation dir workingDir tree
      (dir.location ++ [work, name]) := by
  intro clears
  rcases within.location_of_clears writable clears with
    ⟨wanted, same⟩ | ⟨_, inVenv⟩ | ⟨_, inCache⟩
  · simp only [List.append_cancel_left_eq, List.cons.injEq, true_and,
      and_true] at same
    simp [isKept same] at wanted
  · have inWork : (dir.location ++ [work]) ++ [venvName] <+:
        (dir.location ++ [work]) ++ [name] := by simpa using inVenv
    exact notVenv (Location.eq_of_prefix List.prefix_rfl inWork)
  · have inWork : dir.location ++ [work] <+: dir.location ++ [work, name] := by
      simp
    exact within.work_ne_cache (Location.eq_of_prefix inWork inCache)

/-- What lies in another directory is not cleared. -/
theorem not_clears_other
    (within : layout.Within dir work lock cache)
    (writable : layout.Writable)
    {other : String}
    (isOther : other ≠ work ∧ other ≠ cache)
    {location : Location}
    (inOther : dir.location ++ [other] <+: location) :
    ¬layout.Clears operation dir workingDir tree location := by
  have notInWork : ∀ rest, ¬dir.location ++ work :: rest <+: location := by
    intro rest inWork
    have inWorkTop : dir.location ++ [work] <+: location := by
      refine List.IsPrefix.trans ?_ inWork
      simp
    exact isOther.1 (Location.eq_of_prefix inOther inWorkTop)
  intro clears
  rcases within.location_of_clears writable clears with
    ⟨_, rfl⟩ | ⟨_, inVenv⟩ | ⟨_, inCache⟩
  · exact notInWork [lock] List.prefix_rfl
  · exact notInWork [venvName] inVenv
  · exact isOther.2 (Location.eq_of_prefix inOther inCache)

end Within
end StateLayout

/-! ## The preparations of a session -/

namespace Session

/-- Name of the manifest that a tool is seeded with. -/
def seededName : Tool -> String
  | .uv => Project.fileName
  | _ => Suite.manifestName

/-- A tree is what the preparation of one context of a session leaves of
another tree. -/
structure Prepared
    (tool : Tool)
    (sessionDir : Path)
    (binaries : Tool -> List Path)
    (index : Nat)
    (context : Context)
    (operation : Operation)
    (workingDir : Location)
    (tree after : FileTree) : Prop where
  /-- What the operation clears is gone, and all else is as it was. -/
  clears : tree.Pruned ((StateLayout.of tool context).Clears operation
    sessionDir workingDir tree) after
  /-- The same preparation changes nothing more. -/
  again : (StateLayout.of tool context).prepared? operation workingDir after =
    some after
  /-- The manifest is as it was. -/
  manifest :
    let location := (context.workingDir.join (seededName tool)).location
    after.get? location = tree.get? location
  /-- So is a lockfile that is not cleared. -/
  lockfile : operation.clearsLockfile = false ->
    let location := (StateLayout.of tool context).lockfile.location
    after.get? location = tree.get? location
  /-- So is everything in the directories of all other contexts. -/
  others : ∀ (other : Tool) (otherIndex : Nat) (otherContext : Context),
    (planContexts other sessionDir (binaries other))[otherIndex]? =
        some otherContext ->
      (other, otherIndex) ≠ (tool, index) ->
        ∀ location : Location,
          otherContext.workingDir.location <+: location ∨
              otherContext.cacheDir.location <+: location ->
            after.get? location = tree.get? location

/-- The preparation before an operation succeeds from every tree in which the
lockfile is not a directory, for every planned context of every session: it
clears exactly what the operation must not find.  It is left out exactly where
nothing is cleared.  The cache stays only where the session's directory is
reached through the virtual environment, which takes a double dot. -/
theorem prepared_exactly
    (tool : Tool)
    (sessionDir : Path)
    (absolute : sessionDir.isAbsolute = true)
    (nulFree : Shell.NulFree sessionDir.text)
    (binaries : Tool -> List Path)
    (index : Nat)
    (context : Context)
    (planned : (planContexts tool sessionDir (binaries tool))[index]? =
      some context)
    (operation : Operation)
    (workingDir : Location)
    (tree : FileTree)
    (noDirectory : tree.isDirectory workingDir
      (StateLayout.of tool context).lockfile = false) :
    (∃ after,
      (StateLayout.of tool context).prepared? operation workingDir tree =
          some after ∧
        Prepared tool sessionDir binaries index context operation workingDir
          tree after) ∧
      ((StateLayout.of tool context).prepare? operation = none ↔
        operation.temperature = .noop) ∧
      (".." ∉ sessionDir.steps ->
        ¬(StateLayout.of tool context).CutsOff operation sessionDir workingDir
          tree) := by
  obtain ⟨binary, present, rfl⟩ :=
    (getElem?_planContexts_eq_some_iff _ _ _ _ _).mp planned
  obtain ⟨inRange, _⟩ := List.getElem?_eq_some_iff.mp present
  have within := within_planContext tool sessionDir inRange binary
  have writable := within.writable absolute nulFree
  obtain ⟨after, performed, pruned⟩ :=
    within.prepared?_eq_some absolute nulFree noDirectory operation
  refine ⟨⟨after, performed, ?_⟩, StateLayout.prepare?_eq_none_iff _ _,
    fun downward => within.not_cutsOff writable downward _ _ _⟩
  refine
    { clears := pruned
      again := within.prepared?_again absolute nulFree pruned
      manifest := ?_
      lockfile := ?_
      others := ?_ }
  · apply pruned.kept
    have isName : Path.IsName (seededName tool) := by cases tool <;> decide
    rw [(dirs_planContext _ _ _ _ _).1, within.location_entry isName]
    have notVenv : seededName tool ≠ StateLayout.venvName := by
      cases tool <;> decide
    have notLockfile : seededName tool ≠ tool.lockfileName := by
      cases tool <;> decide
    exact within.not_clears_entry writable notVenv
      fun same => absurd same notLockfile
  · intro isKept
    apply pruned.kept
    rw [within.location_lockfile]
    exact within.not_clears_entry writable within.lock_ne_venv fun _ => isKept
  · intro other otherIndex otherContext otherPlanned different location inOther
    obtain ⟨otherBinary, otherPresent, rfl⟩ :=
      (getElem?_planContexts_eq_some_iff _ _ _ _ _).mp otherPlanned
    obtain ⟨otherInRange, _⟩ := List.getElem?_eq_some_iff.mp otherPresent
    have otherWithin :=
      within_planContext other sessionDir otherInRange otherBinary
    have differs := Slot.name_ne inRange otherInRange
      (fun sameTool => by rw [sameTool]) different
    apply pruned.kept
    rw [(dirs_planContext _ _ _ _ _).1, (dirs_planContext _ _ _ _ _).2,
      Path.location_join _ (Slot.isName_name _ _),
      Path.location_join _ (Slot.isName_name _ _)] at inOther
    rcases inOther with inWork | inCache
    · exact within.not_clears_other writable
        ⟨differs false false, differs false true⟩ inWork
    · exact within.not_clears_other writable
        ⟨differs true false, differs true true⟩ inCache

/-- A directory with a quote in its name and everything in its place. -/
theorem prepared_exactly_quoted :
    let context : Context := planContext .uv ⟨"/it's"⟩ 1 0 ⟨"/bin/uv"⟩
    let tree : FileTree := ⟨[(["it's"], .directory),
      (["it's", "uv"], .directory),
      (["it's", "uv", "uv.lock"], .file .empty false),
      (["it's", "uv", ".venv"], .directory),
      (["it's", "uv-cache"], .directory)]⟩
    tree.isDirectory [] (StateLayout.of .uv context).lockfile = false ∧
      ∃ after, (StateLayout.of .uv context).prepared? .installCold [] tree =
          some after ∧
        Prepared .uv ⟨"/it's"⟩ (fun _ => [⟨"/bin/uv"⟩]) 0 context .installCold
          [] tree after := by
  intro context tree
  have noDirectory :
      tree.isDirectory [] (StateLayout.of .uv context).lockfile = false := by
    decide +kernel
  exact ⟨noDirectory, (prepared_exactly .uv ⟨"/it's"⟩ (by decide) (by decide)
    (fun _ => [⟨"/bin/uv"⟩]) 0 context rfl .installCold [] tree
    noDirectory).1⟩

/-- A session's directory that is reached through the virtual environment:
the preparation of a cold operation succeeds, and the cache is still there. -/
theorem cache_stays_where_cut_off :
    let context : Context := planContext .uv ⟨"/s/uv/.venv/../.."⟩ 1 0
      ⟨"/bin/uv"⟩
    let tree : FileTree := ⟨[(["s"], .directory), (["s", "uv"], .directory),
      (["s", "uv", ".venv"], .directory), (["s", "uv-cache"], .directory)]⟩
    tree.isDirectory [] (StateLayout.of .uv context).lockfile = false ∧
      Operation.syncCold.clearsCache = true ∧
      tree.isDirectory [] context.cacheDir = true ∧
      ∃ after, (StateLayout.of .uv context).prepared? .syncCold [] tree =
          some after ∧
        after.get? context.cacheDir.location = some .directory := by
  intro context tree
  let dir : Path := ⟨"/s/uv/.venv/../.."⟩
  let layout := StateLayout.of .uv context
  have within := within_planContext .uv dir (show 0 < 1 by decide) ⟨"/bin/uv"⟩
  have writable := within.writable (by decide) (by decide)
  have noDirectory : tree.isDirectory [] layout.lockfile = false := by
    decide +kernel
  have leadsCache :=
    @FileTree.leads_location_of_isDirectory tree [] context.cacheDir
      (by decide) (by decide +kernel)
  have leadsVenv :=
    @FileTree.leads_location_of_isDirectory tree [] layout.venv
      (by decide) (by decide +kernel)
  have cutsOff : layout.CutsOff .syncCold dir [] tree :=
    ⟨rfl, layout.venv.location, by decide, _, _, leadsVenv, List.prefix_rfl⟩
  obtain ⟨after, performed, pruned⟩ :=
    within.prepared?_eq_some (by decide) (by decide) noDirectory .syncCold
  have notCleared : ¬layout.Clears .syncCold dir [] tree
      context.cacheDir.location := by
    rintro ((⟨wanted, _⟩ | ⟨_, removes⟩) | ⟨_, notCutOff, _⟩)
    · exact absurd wanted (by decide)
    · have inVenv : layout.venv.location <+: context.cacheDir.location :=
        writable.below_of_removes_venv removes
      exact absurd inVenv (by decide)
    · exact notCutOff cutsOff
  refine ⟨noDirectory, rfl, ?_, after, performed, ?_⟩
  · exact (tree.isDirectory_iff [] context.cacheDir).mpr ⟨_, leadsCache⟩
  · rw [pruned.kept _ notCleared]
    exact leadsCache.present

end Session
end LockBench
