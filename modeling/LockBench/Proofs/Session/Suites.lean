import LockBench.Proofs.Host.Changes
import LockBench.Proofs.Session.Preparation
import LockBench.Task.Run
import Mathlib.Data.List.Nodup

/-!
# The suites of a session

Every suite of a session is housed in two directories of its own.  The ways to
its lockfile and its virtual environment lead through no directory of another
suite, provided that the session's directory is not reached through itself.
-/

namespace LockBench

namespace Suite

/-- The name of the directory that a suite works in. -/
def workName (suite : Suite) : String :=
  suite.context.workingDir.steps.getLast?.getD ""

/-- The name of the directory of a suite's cache. -/
def cacheName (suite : Suite) : String :=
  suite.context.cacheDir.steps.getLast?.getD ""

/-- A location lies in a directory of the suite. -/
def Owns
    (suite : Suite)
    (location : Location) : Prop :=
  suite.context.workingDir.location <+: location ∨
    suite.context.cacheDir.location <+: location

end Suite

namespace Session

/-- Suites have directories of their own in a session's directory. -/
structure Housed
    (sessionDir : Path)
    (suites : List Suite) : Prop where
  /-- The session's directory is given by an absolute path. -/
  absolute : sessionDir.isAbsolute = true
  /-- The path holds no NUL. -/
  nulFree : Shell.NulFree sessionDir.text
  /-- The way to the directory does not lead through it. -/
  closed : ∀ earlier ∈ sessionDir.way, ¬sessionDir.location <+: earlier
  /-- The directories are directly below it. -/
  dirs : ∀ suite ∈ suites,
    suite.context.workingDir = sessionDir.join suite.workName ∧
      suite.context.cacheDir = sessionDir.join suite.cacheName
  /-- The layouts lie in them. -/
  within : ∀ suite ∈ suites, suite.layout.Within sessionDir suite.workName
    suite.tool.lockfileName suite.cacheName
  /-- No two suites share one. -/
  apart : ∀ suite ∈ suites, ∀ other ∈ suites, other ≠ suite ->
    other.workName ≠ suite.workName ∧ other.workName ≠ suite.cacheName

/-! ## Planned suites -/

/-- A planned suite is that of one binary of one tool. -/
theorem mem_planSuites_iff
    (project : ProjectOptions)
    (sessionDir : Path)
    (tools : List (Tool × List Path))
    (suite : Suite) :
    suite ∈ RunTask.planSuites project sessionDir tools ↔
      ∃ entry ∈ tools, ∃ index binary, entry.2[index]? = some binary ∧
        suite =
          { tool := entry.1
            context := planContext entry.1 sessionDir entry.2.length index
              binary
            project } := by
  simp only [RunTask.planSuites, List.mem_flatMap, List.mem_map,
    mem_planContexts_iff]
  constructor
  · rintro ⟨entry, isTool, context, ⟨index, binary, present, rfl⟩, rfl⟩
    exact ⟨entry, isTool, index, binary, present, rfl⟩
  · rintro ⟨entry, isTool, index, binary, present, rfl⟩
    exact ⟨entry, isTool, _, ⟨index, binary, present, rfl⟩, rfl⟩

theorem workName_planContext
    (tool : Tool)
    (sessionDir : Path)
    (count index : Nat)
    (binary : Path)
    (project : ProjectOptions) :
    let context := planContext tool sessionDir count index binary
    Suite.workName { tool, context, project } =
        Slot.name ⟨tool, index, false⟩ count ∧
      Suite.cacheName { tool, context, project } =
        Slot.name ⟨tool, index, true⟩ count := by
  obtain ⟨workingDir_eq, cacheDir_eq⟩ :=
    dirs_planContext tool sessionDir count index binary
  simp only [Suite.workName, Suite.cacheName, workingDir_eq, cacheDir_eq]
  rw [Path.steps_join _ (Slot.isName_name _ _),
    Path.steps_join _ (Slot.isName_name _ _)]
  simp

section Planned

variable {project : ProjectOptions} {sessionDir : Path}
  {tools : List (Tool × List Path)} {suite other : Suite}

/-- A planned suite works and caches directly below the session's directory. -/
theorem dirs_of_planned
    (planned : suite ∈ RunTask.planSuites project sessionDir tools) :
    suite.context.workingDir = sessionDir.join suite.workName ∧
      suite.context.cacheDir = sessionDir.join suite.cacheName := by
  obtain ⟨entry, _, index, binary, _, rfl⟩ :=
    (mem_planSuites_iff _ _ _ _).mp planned
  obtain ⟨work_eq, cache_eq⟩ := workName_planContext entry.1 sessionDir
    entry.2.length index binary project
  rw [work_eq, cache_eq]
  exact dirs_planContext _ _ _ _ _

theorem within_of_planned
    (planned : suite ∈ RunTask.planSuites project sessionDir tools) :
    suite.layout.Within sessionDir suite.workName suite.tool.lockfileName
      suite.cacheName := by
  obtain ⟨entry, _, index, binary, present, rfl⟩ :=
    (mem_planSuites_iff _ _ _ _).mp planned
  obtain ⟨inRange, _⟩ := List.getElem?_eq_some_iff.mp present
  obtain ⟨work_eq, cache_eq⟩ := workName_planContext entry.1 sessionDir
    entry.2.length index binary project
  rw [work_eq, cache_eq]
  exact within_planContext entry.1 sessionDir inRange binary

/-- The directory that a planned suite works in is that of no other one, if the
tools are different. -/
theorem apart_of_planned
    (different : (tools.map Prod.fst).Nodup)
    (planned : suite ∈ RunTask.planSuites project sessionDir tools)
    (otherPlanned : other ∈ RunTask.planSuites project sessionDir tools)
    (otherwise : other ≠ suite) :
    other.workName ≠ suite.workName ∧ other.workName ≠ suite.cacheName := by
  obtain ⟨entry, isTool, index, binary, present, rfl⟩ :=
    (mem_planSuites_iff _ _ _ _).mp planned
  obtain ⟨otherEntry, isOtherTool, otherIndex, otherBinary, otherPresent, rfl⟩ :=
    (mem_planSuites_iff _ _ _ _).mp otherPlanned
  obtain ⟨inRange, _⟩ := List.getElem?_eq_some_iff.mp present
  obtain ⟨otherInRange, _⟩ := List.getElem?_eq_some_iff.mp otherPresent
  have sameEntry : otherEntry.1 = entry.1 -> otherEntry = entry :=
    fun sameTool => List.inj_on_of_nodup_map different isOtherTool isTool
      sameTool
  have elsewhere : (otherEntry.1, otherIndex) ≠ (entry.1, index) := by
    intro same
    obtain ⟨sameTool, rfl⟩ := Prod.mk.inj same
    obtain rfl := sameEntry sameTool
    rw [present, Option.some.injEq] at otherPresent
    exact otherwise (by rw [otherPresent])
  have differs := Slot.name_ne inRange otherInRange
    (fun sameTool => by rw [sameEntry sameTool]) elsewhere false
  rw [(workName_planContext _ _ _ _ _ _).1,
    (workName_planContext _ _ _ _ _ _).1,
    (workName_planContext _ _ _ _ _ _).2]
  exact ⟨differs false, differs true⟩

/-- The suites planned for different tools are housed in a session's directory
that has just been made. -/
theorem housed_planSuites
    {workingDir : Location}
    {before made : FileTree}
    (absolute : sessionDir.isAbsolute = true)
    (fresh : before.makeDir workingDir sessionDir = .ok made)
    (different : (tools.map Prod.fst).Nodup) :
    Housed sessionDir (RunTask.planSuites project sessionDir tools) where
  absolute := absolute
  nulFree := by
    obtain ⟨_, placed, _, _⟩ := FileTree.makeDir_eq_ok fresh
    obtain ⟨usable, _⟩ := FileTree.place_eq_some placed
    intro present
    simp [FileTree.unusable?, present] at usable
  closed _ onWay :=
    FileTree.not_prefix_of_mem_way_of_makeDir absolute fresh onWay
  dirs _ planned := dirs_of_planned planned
  within _ planned := within_of_planned planned
  apart _ planned _ otherPlanned otherwise :=
    apart_of_planned different planned otherPlanned otherwise

end Planned

/-! ## Entries of the directories -/

namespace Housed

variable {sessionDir : Path} {suites : List Suite} {suite other : Suite}
  {location : Location} {name : String} {path : Path}

/-- A path leads to an entry of the directory that a suite works in. -/
def Entry
    (sessionDir : Path)
    (suite : Suite)
    (name : String)
    (path : Path) : Prop :=
  Path.IsName name ∧ path = (sessionDir.join suite.workName).join name

/-- A location is on the way that a path leads, or at its end. -/
def Needed
    (path : Path)
    (location : Location) : Prop :=
  location ∈ path.way ∨ location = path.location

theorem entry_lockfile
    (housed : Housed sessionDir suites)
    (member : suite ∈ suites) :
    Entry sessionDir suite suite.tool.lockfileName suite.layout.lockfile :=
  ⟨(housed.within suite member).areNames.2.1,
    (housed.within suite member).lockfile_eq⟩

theorem entry_venv
    (housed : Housed sessionDir suites)
    (member : suite ∈ suites) :
    Entry sessionDir suite StateLayout.venvName suite.layout.venv :=
  ⟨StateLayout.isName_venvName, (housed.within suite member).venv_eq⟩

/-- The way to an entry leads to the session's directory and then through it
and the directory that the suite works in. -/
theorem needed_cases
    (housed : Housed sessionDir suites)
    (member : suite ∈ suites)
    (entry : Entry sessionDir suite name path)
    (isNeeded : Needed path location) :
    location ∈ sessionDir.way ∨ location = sessionDir.location ∨
      location = sessionDir.location ++ [suite.workName] ∨
      location = sessionDir.location ++ [suite.workName, name] := by
  have within := housed.within suite member
  obtain ⟨isName, rfl⟩ := entry
  rw [Needed, within.way_entry isName, within.location_entry isName,
    List.mem_append, List.mem_cons, List.mem_singleton] at isNeeded
  tauto

/-- A directory of the session that an entry needs is the one that the suite
works in. -/
theorem name_eq_of_needed
    (housed : Housed sessionDir suites)
    (member : suite ∈ suites)
    (entry : Entry sessionDir suite name path)
    (isNeeded : Needed path location)
    {top : String}
    (below : sessionDir.location ++ [top] <+: location) :
    top = suite.workName := by
  have inWork : ∀ rest, sessionDir.location ++ [suite.workName] <+:
      sessionDir.location ++ suite.workName :: rest := by
    intro rest
    simp
  rcases housed.needed_cases member entry isNeeded with
    onWay | rfl | rfl | rfl
  · exact absurd ((List.prefix_append _ _).trans below)
      (housed.closed location onWay)
  · have length_le := below.length_le
    simp only [List.length_append, List.length_singleton] at length_le
    omega
  · exact Location.eq_of_prefix below (inWork [])
  · exact Location.eq_of_prefix below (inWork [name])

/-- An entry needs nothing of another one. -/
theorem not_other_of_needed
    (housed : Housed sessionDir suites)
    (member : suite ∈ suites)
    (entry : Entry sessionDir suite name path)
    (isNeeded : Needed path location)
    {otherName : String}
    (different : otherName ≠ name) :
    ¬sessionDir.location ++ [suite.workName, otherName] <+: location := by
  intro inOther
  have length_le := inOther.length_le
  rcases housed.needed_cases member entry isNeeded with
    onWay | rfl | rfl | rfl
  · exact housed.closed location onWay ((List.prefix_append _ _).trans inOther)
  · simp only [List.length_append, List.length_cons, List.length_nil]
      at length_le
    omega
  · simp only [List.length_append, List.length_cons, List.length_nil]
      at length_le
    omega
  · have inWork : (sessionDir.location ++ [suite.workName]) ++ [otherName] <+:
        (sessionDir.location ++ [suite.workName]) ++ [name] := by
      simpa using inOther
    exact different (Location.eq_of_prefix inWork List.prefix_rfl)

/-- What an entry needs is in no directory of another suite. -/
theorem not_owns
    (housed : Housed sessionDir suites)
    (member : suite ∈ suites)
    (otherMember : other ∈ suites)
    (different : other ≠ suite)
    (entry : Entry sessionDir other name path)
    (isNeeded : Needed path location) :
    ¬suite.Owns location := by
  have within := housed.within suite member
  obtain ⟨workDiffers, cacheDiffers⟩ :=
    housed.apart suite member other otherMember different
  rw [Suite.Owns, (housed.dirs suite member).1, (housed.dirs suite member).2,
    Path.location_join _ within.areNames.1,
    Path.location_join _ within.areNames.2.2]
  rintro (inWork | inCache)
  · exact workDiffers
      (housed.name_eq_of_needed otherMember entry isNeeded inWork).symm
  · exact cacheDiffers
      (housed.name_eq_of_needed otherMember entry isNeeded inCache).symm

theorem writable
    (housed : Housed sessionDir suites)
    (member : suite ∈ suites) : suite.layout.Writable :=
  (housed.within suite member).writable housed.absolute housed.nulFree

/-- What is cleared for a suite lies in its directories. -/
theorem owns_of_clears
    (housed : Housed sessionDir suites)
    (member : suite ∈ suites)
    {operation : Operation}
    {workingDir : Location}
    {tree : FileTree}
    (clears : suite.layout.Clears operation sessionDir workingDir tree
      location) : suite.Owns location := by
  have within := housed.within suite member
  have inWork : ∀ name, sessionDir.location ++ [suite.workName] <+:
      sessionDir.location ++ [suite.workName, name] := by
    intro name
    simp
  rw [Suite.Owns, (housed.dirs suite member).1, (housed.dirs suite member).2,
    Path.location_join _ within.areNames.1,
    Path.location_join _ within.areNames.2.2]
  rcases within.location_of_clears (housed.writable member) clears with
    ⟨_, rfl⟩ | ⟨_, inVenv⟩ | ⟨_, inCache⟩
  · exact .inl (inWork _)
  · exact .inl ((inWork _).trans inVenv)
  · exact .inr inCache

/-- What an entry needs is cleared for no other suite, and for the suite itself
only where the entry is to be cleared. -/
theorem not_clears_entry
    (housed : Housed sessionDir suites)
    (member : suite ∈ suites)
    (otherMember : other ∈ suites)
    {operation : Operation}
    (entry : Entry sessionDir other name path)
    (isKept : other = suite ->
      (name = other.tool.lockfileName -> operation.clearsLockfile = false) ∧
        (name = StateLayout.venvName -> operation.clearsVenv = false))
    {workingDir : Location}
    {tree : FileTree}
    (isNeeded : Needed path location) :
    ¬suite.layout.Clears operation sessionDir workingDir tree location := by
  intro clears
  by_cases isOwn : other = suite
  · obtain rfl := isOwn
    obtain ⟨lockfileKept, venvKept⟩ := isKept rfl
    have within := housed.within other member
    rcases within.location_of_clears (housed.writable member) clears with
      ⟨wanted, rfl⟩ | ⟨wanted, inVenv⟩ | ⟨_, inCache⟩
    · by_cases isLockfile : name = other.tool.lockfileName
      · simp [lockfileKept isLockfile] at wanted
      · exact housed.not_other_of_needed otherMember entry isNeeded
          (Ne.symm isLockfile) List.prefix_rfl
    · by_cases isVenv : name = StateLayout.venvName
      · simp [venvKept isVenv] at wanted
      · exact housed.not_other_of_needed otherMember entry isNeeded
          (Ne.symm isVenv) inVenv
    · exact within.work_ne_cache
        (housed.name_eq_of_needed otherMember entry isNeeded inCache).symm
  · exact housed.not_owns member otherMember isOwn entry isNeeded
      (housed.owns_of_clears member clears)

/-- The lockfile of a suite is cleared for that suite only, where it is to be
cleared. -/
theorem not_clears
    (housed : Housed sessionDir suites)
    (member : suite ∈ suites)
    (otherMember : other ∈ suites)
    {operation : Operation}
    (isKept : other = suite -> operation.clearsLockfile = false)
    {workingDir : Location}
    {tree : FileTree}
    (isNeeded : Needed other.layout.lockfile location) :
    ¬suite.layout.Clears operation sessionDir workingDir tree location := by
  refine housed.not_clears_entry member otherMember
    (housed.entry_lockfile otherMember) (fun isOwn => ⟨fun _ => isKept isOwn, ?_⟩)
    isNeeded
  exact fun isVenv =>
    absurd isVenv (housed.within other otherMember).lock_ne_venv

/-- The virtual environment of a suite is cleared for that suite only, where
it is to be cleared. -/
theorem not_clears_venv
    (housed : Housed sessionDir suites)
    (member : suite ∈ suites)
    (otherMember : other ∈ suites)
    {operation : Operation}
    (isKept : other = suite -> operation.clearsVenv = false)
    {workingDir : Location}
    {tree : FileTree}
    (isNeeded : Needed other.layout.venv location) :
    ¬suite.layout.Clears operation sessionDir workingDir tree location := by
  refine housed.not_clears_entry member otherMember
    (housed.entry_venv otherMember) (fun isOwn => ⟨?_, fun _ => isKept isOwn⟩)
    isNeeded
  exact fun isLockfile =>
    absurd isLockfile.symm (housed.within other otherMember).lock_ne_venv

end Housed

end Session
end LockBench
