import LockBench.Proofs.Session.Groups
import LockBench.Proofs.Session.Suites
import LockBench.Proofs.Session.World

/-!
# Readiness for timed runs

Between two runs, every suite of a session has a lockfile.  The preparation of
a run takes away what the operation must not find, in the suite's own
directories only, and the run brings the lockfile back if it was taken away.
So every run starts in the state that its operation promises, in whatever
order operations come.
-/

namespace LockBench
namespace Session

/-- What is relied on of the tools: a successful lock or install leaves a
lockfile, a sync keeps it, and a tool touches only its own directories. -/
structure Reliable
    (programs : Programs)
    (workingDir : Location)
    (suites : List Suite) : Prop where
  /-- Nothing is started with NUL in its texts. -/
  starts : ∀ launch tree after, programs launch tree after ->
    Machine.holdsNul launch = false
  /-- A lock and an install leave a lockfile. -/
  locks : ∀ suite ∈ suites, ∀ step, step ≠ .sync -> ∀ tree after,
    programs (suite.launch step) tree after ->
      after.HoldsFile workingDir suite.layout.lockfile
  /-- A sync keeps the lockfile. -/
  syncs : ∀ suite ∈ suites, ∀ tree after,
    programs (suite.launch .sync) tree after ->
      tree.HoldsFile workingDir suite.layout.lockfile ->
        after.HoldsFile workingDir suite.layout.lockfile
  /-- Everything outside of the directories of the suite is as it was. -/
  stays : ∀ suite ∈ suites, ∀ step tree after,
    programs (suite.launch step) tree after ->
      ∀ location, ¬suite.Owns location ->
        after.get? location = tree.get? location

/-- Some suites have their lockfiles, and their tools can be started. -/
def Locked
    (workingDir : Location)
    (suites : List Suite)
    (tree : FileTree) : Prop :=
  ∀ suite ∈ suites, Machine.holdsNul (suite.launch .lock) = false ∧
    tree.HoldsFile workingDir suite.layout.lockfile

/-- The files are as an operation of a suite promises. -/
structure Ready
    (workingDir : Location)
    (suite : Suite)
    (operation : Operation)
    (tree : FileTree) : Prop where
  /-- The lockfile is there, unless the operation clears it. -/
  lockfile : tree.Reaches workingDir suite.layout.lockfile ↔
    operation.clearsLockfile = false
  /-- The virtual environment is not, if the operation clears it. -/
  venv : operation.clearsVenv = true ->
    ¬tree.Reaches workingDir suite.layout.venv
  /-- The cache is not, if the operation clears it. -/
  cache : operation.clearsCache = true ->
    ¬tree.Reaches workingDir suite.layout.cacheDir

/-- A run is that of a suite, and it starts as its operation promises. -/
def StartsReady
    (workingDir : Location)
    (suites : List Suite)
    (moment : Moment) : Prop :=
  (∃ suite ∈ suites,
      suite.command? moment.operation = some moment.command) ∧
    ∀ suite ∈ suites,
      suite.command? moment.operation = some moment.command ->
        Ready workingDir suite moment.operation moment.tree

section Runs

variable {programs : Programs} {workingDir : Location} {sessionDir : Path}
  {suites : List Suite} {suite : Suite} {operation : Operation}
  {tree after last : FileTree}

/-! ## Preparing one run -/

/-- The preparation that does nothing does nothing. -/
theorem run?_idle
    (workingDir : Location)
    (tree : FileTree) :
    Shell.run? workingDir tree Harness.idle = some tree := by
  have bare : Shell.IsBareWord Harness.idle := by decide
  have readable : ∀ piece ∈ [Shell.Piece.bare Harness.idle],
      piece.Readable := by
    rw [List.forall_mem_singleton]
    exact Shell.reads_bareWord bare
  have read := (Shell.readsList_words (Shell.assignment?_bareLetters bare)
    readable).andList?_eq
  have line_eq : " ".intercalate
      ([Shell.Piece.bare Harness.idle].map Shell.Piece.text) =
        Harness.idle := by decide
  rw [String.ofList_toList, line_eq] at read
  rw [Shell.run?, read]
  simp [Shell.Piece.bare, Harness.idle, Shell.SimpleCommand.perform?]

/-- The preparation of a command is that of its suite's layout. -/
theorem run?_prepare
    {command : Command}
    (supported : suite.command? operation = some command) :
    Shell.run? workingDir tree (command.prepare.getD Harness.idle) =
      suite.layout.prepared? operation workingDir tree := by
  rw [Suite.command?] at supported
  split at supported
  · cases supported
    rw [StateLayout.prepared?]
    cases suite.layout.prepare? operation with
    | some line => rfl
    | none => exact run?_idle workingDir tree
  · cases supported

/-- Where every suite has its lockfile, the preparation of one of them
succeeds.  It leaves the files as the operation promises, and the lockfiles of
all others where they are. -/
theorem prepared?_of_locked
    (housed : Housed sessionDir suites)
    (locked : Locked workingDir suites tree)
    (member : suite ∈ suites)
    (operation : Operation) :
    ∃ after,
      suite.layout.prepared? operation workingDir tree = some after ∧
        Ready workingDir suite operation after ∧
        ∀ other ∈ suites, (other = suite -> operation.clearsLockfile = false) ->
          after.HoldsFile workingDir other.layout.lockfile := by
  have within := housed.within suite member
  have writable := housed.writable member
  obtain ⟨after, prepared, pruned⟩ :=
    within.prepared?_eq_some housed.absolute housed.nulFree
      (locked suite member).2.isDirectory_eq operation
  have kept : ∀ other ∈ suites,
      (other = suite -> operation.clearsLockfile = false) ->
        after.HoldsFile workingDir other.layout.lockfile := by
    intro other otherMember isKept
    exact (locked other otherMember).2.of_pruned
      (housed.writable otherMember).absolute_lockfileRemoval pruned
      fun location => housed.not_clears member otherMember isKept
  have gone : ∀ removal ∈ suite.layout.removals operation,
      ¬after.Reaches workingDir removal.target := fun removal =>
    within.not_reaches_of_pruned writable pruned
  refine ⟨after, prepared, ⟨?_, ?_, ?_⟩, kept⟩
  · constructor
    · intro reaches
      by_contra clears
      rw [Bool.not_eq_false] at clears
      refine gone suite.layout.lockfileRemoval ?_ reaches
      exact (suite.layout.mem_removals_iff _ _).mpr (.inl ⟨clears, rfl⟩)
    · exact fun isKept => (kept suite member fun _ => isKept).reaches
  · intro clears
    apply gone suite.layout.venvRemoval
    exact (suite.layout.mem_removals_iff _ _).mpr (.inr (.inl ⟨clears, rfl⟩))
  · intro clears
    apply gone suite.layout.cacheRemoval
    exact (suite.layout.mem_removals_iff _ _).mpr (.inr (.inr ⟨clears, rfl⟩))

/-! ## One run of a command -/

/-- The processes of a suite leave everything outside of its directories. -/
theorem get?_of_succeed
    (reliable : Reliable programs workingDir suites)
    (member : suite ∈ suites)
    {step : Step}
    (succeed : Succeed programs (suite.launches step) tree last)
    {location : Location}
    (outside : ¬suite.Owns location) :
    last.get? location = tree.get? location := by
  have ownLaunches := suite.exists_step_of_mem_launches step
  generalize suite.launches step = launches at succeed ownLaunches
  induction succeed with
  | done tree => rfl
  | next first later inductionHypothesis =>
      rw [List.forall_mem_cons] at ownLaunches
      obtain ⟨⟨other, rfl⟩, ownRest⟩ := ownLaunches
      rw [inductionHypothesis ownRest]
      exact reliable.stays suite member other _ _ first location outside

/-- The processes of an operation bring back the lockfile of their suite where
the operation clears it, and keep it where it does not. -/
theorem holdsFile_of_succeed_own
    (reliable : Reliable programs workingDir suites)
    (member : suite ∈ suites)
    (succeed : Succeed programs (suite.launches operation.step) tree last)
    (kept : operation.clearsLockfile = false ->
      tree.HoldsFile workingDir suite.layout.lockfile) :
    last.HoldsFile workingDir suite.layout.lockfile := by
  have notCleared : operation.step = .sync ->
      operation.clearsLockfile = false := by
    intro isSync
    simp [Operation.clearsLockfile, isSync]
  rcases suite.launches_cases operation.step with
    ⟨_, _, launches_eq⟩ | ⟨_, launches_eq⟩
  · rw [launches_eq] at succeed
    cases succeed with
    | next locks later =>
      cases later with
      | next syncs done =>
        cases done
        exact reliable.syncs suite member _ _ syncs
          (reliable.locks suite member .lock (by decide) _ _ locks)
  · rw [launches_eq] at succeed
    cases succeed with
    | next runs done =>
      cases done
      by_cases isSync : operation.step = .sync
      · rw [isSync] at runs
        exact reliable.syncs suite member _ _ runs (kept (notCleared isSync))
      · exact reliable.locks suite member operation.step isSync _ _ runs

/-- One run of a command, from its prepared files, leaves every suite with its
lockfile. -/
theorem locked_of_succeed
    (housed : Housed sessionDir suites)
    (reliable : Reliable programs workingDir suites)
    (startable : ∀ suite ∈ suites,
      Machine.holdsNul (suite.launch .lock) = false)
    (member : suite ∈ suites)
    (kept : ∀ other ∈ suites,
      (other = suite -> operation.clearsLockfile = false) ->
        tree.HoldsFile workingDir other.layout.lockfile)
    (succeed : Succeed programs (suite.launches operation.step) tree last) :
    Locked workingDir suites last := by
  intro other otherMember
  refine ⟨startable other otherMember, ?_⟩
  by_cases isOwn : other = suite
  · obtain rfl := isOwn
    exact holdsFile_of_succeed_own reliable member succeed
      fun isKept => kept other member fun _ => isKept
  · refine (kept other otherMember fun isOwn' => absurd isOwn' isOwn).congr
      (housed.writable otherMember).absolute_lockfileRemoval ?_
    intro location isNeeded
    exact get?_of_succeed reliable member succeed
      (housed.not_owns member otherMember isOwn
        (housed.entry_lockfile otherMember) isNeeded)

/-! ## The runs of a group -/

/-- The first run of a plan starts on the files that the preparation of its
suite leaves. -/
theorem first_of_works
    {group : Group}
    {run : Command × Bool}
    (ofGroup : run.1 ∈ group.commands)
    (startable : Machine.holdsNul (suite.launch .lock) = false)
    (supported : suite.command? operation = some run.1)
    {prepared : FileTree}
    (prepares : suite.layout.prepared? operation workingDir tree =
      some prepared)
    {rest : List Job}
    {moments : List Moment}
    (works : Works programs workingDir operation (once group run ++ rest) tree
      moments last) :
    ∃ middle later,
      Succeed programs (suite.launches operation.step) prepared middle ∧
        Works programs workingDir operation rest middle later last ∧
        moments = ⟨operation, run.1, run.2, prepared⟩ :: later := by
  rw [← run?_prepare supported] at prepares
  have unprepared : group.anyPrepare = false -> prepared = tree := by
    intro noneAtAll
    rw [Group.anyPrepare, List.any_eq_false] at noneAtAll
    have noPrepare : run.1.prepare = none := by
      simpa using noneAtAll run.1 ofGroup
    rw [noPrepare, Option.getD_none, run?_idle, Option.some.injEq] at prepares
    exact prepares.symm
  exact works.of_once prepares unprepared
    (suite.launches?_shellLine startable supported)

/-- All runs of the commands of a group start as promised, and they leave every
suite with its lockfile. -/
theorem startsReady_of_works
    (housed : Housed sessionDir suites)
    (reliable : Reliable programs workingDir suites)
    {group : Group}
    (collected : Group.collect? suites operation = some group)
    {runs : List (Command × Bool)}
    (ofGroup : ∀ run ∈ runs, run.1 ∈ group.commands)
    {moments : List Moment}
    (locked : Locked workingDir suites tree)
    (works : Works programs workingDir operation (runs.flatMap (once group))
      tree moments last) :
    (∀ moment ∈ moments, StartsReady workingDir suites moment) ∧
      Locked workingDir suites last := by
  induction runs generalizing tree moments with
  | nil =>
      cases works
      exact ⟨by simp, locked⟩
  | cons run rest inductionHypothesis =>
      rw [List.forall_mem_cons] at ofGroup
      rw [List.flatMap_cons] at works
      obtain ⟨suite, member, supported⟩ :=
        Group.exists_suite_of_mem collected ofGroup.1
      obtain ⟨prepared, prepares, _, kept⟩ :=
        prepared?_of_locked housed locked member operation
      obtain ⟨middle, later, succeed, worksRest, rfl⟩ :=
        first_of_works ofGroup.1 (locked suite member).1 supported prepares works
      have lockedMiddle := locked_of_succeed housed reliable
        (fun other otherMember => (locked other otherMember).1) member kept
        succeed
      obtain ⟨readyRest, lockedLast⟩ :=
        inductionHypothesis ofGroup.2 lockedMiddle worksRest
      refine ⟨?_, lockedLast⟩
      rw [List.forall_mem_cons]
      refine ⟨⟨⟨suite, member, supported⟩, ?_⟩, readyRest⟩
      -- The same line prepares every suite whose command this is.
      intro other otherMember otherSupported
      obtain ⟨otherPrepared, otherPrepares, otherReady, _⟩ :=
        prepared?_of_locked housed locked otherMember operation
      rw [← run?_prepare otherSupported, run?_prepare supported, prepares]
        at otherPrepares
      cases otherPrepares
      exact otherReady

end Runs

end Session
end LockBench
