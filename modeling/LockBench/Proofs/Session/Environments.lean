import LockBench.Proofs.Session.Continuity

/-!
# Virtual environments

Every run of a suite but that of a lock leaves the suite with a virtual
environment.  It is cleared only for runs that leave one again, so that from
the first such run on it is there whenever nothing is to be cleared.  With
untimed runs in front of the timed ones, no timed run is the first one.
-/

namespace LockBench
namespace Session

/-- What is relied on of the tool of a suite: a lock keeps a virtual
environment, and every other step leaves one. -/
structure Furnishes
    (programs : Programs)
    (workingDir : Location)
    (suite : Suite) : Prop where
  /-- A lock keeps what is there. -/
  keeps : ∀ tree after, programs (suite.launch .lock) tree after ->
    tree.Reaches workingDir suite.layout.venv ->
      after.Reaches workingDir suite.layout.venv
  /-- A sync and an install leave a virtual environment. -/
  makes : ∀ step, step ≠ .lock -> ∀ tree after,
    programs (suite.launch step) tree after ->
      after.Reaches workingDir suite.layout.venv

/-- A moment starts a run that leaves a suite with a virtual environment. -/
def Fills
    (suite : Suite)
    (moment : Moment) : Prop :=
  moment.operation.step ≠ .lock ∧
    suite.command? moment.operation = some moment.command

/-- A sync of a suite that is to find nothing to do finds a virtual
environment, if a run before it left one. -/
def FindsVenv
    (workingDir : Location)
    (suite : Suite)
    (seen : List Moment)
    (moment : Moment) : Prop :=
  moment.operation = .syncNoop ->
    suite.command? .syncNoop = some moment.command ->
    (∃ earlier ∈ seen, Fills suite earlier) ->
      moment.tree.Reaches workingDir suite.layout.venv

/-- A timed run comes after an untimed one of the same command. -/
def WarmedUp
    (seen : List Moment)
    (moment : Moment) : Prop :=
  moment.timed = true -> ∃ earlier ∈ seen,
    earlier.operation = moment.operation ∧ earlier.command = moment.command

/-- After some moments, all suites have their lockfiles, and one of them has a
virtual environment if some run left it one. -/
structure Furnished
    (workingDir : Location)
    (suites : List Suite)
    (suite : Suite)
    (seen : List Moment)
    (tree : FileTree) : Prop where
  /-- All suites have their lockfiles. -/
  locked : Locked workingDir suites tree
  /-- The suite has what its runs left. -/
  filled : (∃ moment ∈ seen, Fills suite moment) ->
    tree.Reaches workingDir suite.layout.venv
  /-- So it was at every moment. -/
  finds : EachAfter (FindsVenv workingDir suite) seen

section Runs

variable {programs : Programs} {workingDir : Location} {sessionDir : Path}
  {suites : List Suite} {suite owner : Suite} {operation : Operation}
  {tree prepared last : FileTree} {seen moments : List Moment}

/-! ## One run -/

/-- The preparation of a suite leaves the virtual environments of all others,
and its own where it is not to be cleared. -/
theorem venv_of_prepared
    (housed : Housed sessionDir suites)
    (locked : Locked workingDir suites tree)
    (ownerMember : owner ∈ suites)
    (member : suite ∈ suites)
    (isKept : suite = owner -> operation.clearsVenv = false)
    (prepares : owner.layout.prepared? operation workingDir tree =
      some prepared)
    (reaches : tree.Reaches workingDir suite.layout.venv) :
    prepared.Reaches workingDir suite.layout.venv := by
  obtain ⟨after, prepares_eq, pruned⟩ :=
    (housed.within owner ownerMember).prepared?_eq_some housed.absolute
      housed.nulFree (locked owner ownerMember).2.isDirectory_eq operation
  obtain rfl : prepared = after :=
    Option.some.inj (prepares.symm.trans prepares_eq)
  exact reaches.of_pruned (housed.writable member).absolute_venvRemoval pruned
    fun location => housed.not_clears_venv ownerMember member isKept

/-- The processes of one suite leave the virtual environment of another. -/
theorem venv_of_succeed
    (housed : Housed sessionDir suites)
    (reliable : Reliable programs workingDir suites)
    (ownerMember : owner ∈ suites)
    (member : suite ∈ suites)
    (different : suite ≠ owner)
    {step : Step}
    (succeed : Succeed programs (owner.launches step) tree last)
    (reaches : tree.Reaches workingDir suite.layout.venv) :
    last.Reaches workingDir suite.layout.venv := by
  refine reaches.congr (housed.writable member).absolute_venvRemoval ?_
  intro location isNeeded
  exact get?_of_succeed reliable ownerMember succeed
    (housed.not_owns ownerMember member different (housed.entry_venv member)
      isNeeded)

/-- The processes of a suite leave it a virtual environment, unless they only
lock; then they keep what is there. -/
theorem venv_of_succeed_own
    (furnishes : Furnishes programs workingDir suite)
    {step : Step}
    (succeed : Succeed programs (suite.launches step) tree last)
    (kept : step = .lock -> tree.Reaches workingDir suite.layout.venv) :
    last.Reaches workingDir suite.layout.venv := by
  rcases suite.launches_cases step with
    ⟨_, _, launches_eq⟩ | ⟨_, launches_eq⟩
  · rw [launches_eq] at succeed
    cases succeed with
    | next locks later =>
      cases later with
      | next syncs done =>
        cases done
        exact furnishes.makes .sync (by decide) _ _ syncs
  · rw [launches_eq] at succeed
    cases succeed with
    | next runs done =>
      cases done
      by_cases isLock : step = .lock
      · obtain rfl := isLock
        exact furnishes.keeps _ _ runs (kept rfl)
      · exact furnishes.makes step isLock _ _ runs

/-- The command of a run is that of a suite, and of the one in question if it
is one of its commands. -/
theorem exists_owner
    {group : Group}
    (collected : Group.collect? suites operation = some group)
    (member : suite ∈ suites)
    {command : Command}
    (ofGroup : command ∈ group.commands) :
    ∃ owner ∈ suites, owner.command? operation = some command ∧
      (suite.command? operation = some command -> suite = owner) := by
  by_cases isOwn : suite.command? operation = some command
  · exact ⟨suite, member, isOwn, fun _ => rfl⟩
  · obtain ⟨owner, ownerMember, supported⟩ :=
      Group.exists_suite_of_mem collected ofGroup
    exact ⟨owner, ownerMember, supported, fun isOwn' => absurd isOwn' isOwn⟩

/-- The first run of a plan finds the virtual environment if it may, and leaves
what runs have left. -/
theorem furnished_of_first
    (housed : Housed sessionDir suites)
    (reliable : Reliable programs workingDir suites)
    (member : suite ∈ suites)
    (furnishes : Furnishes programs workingDir suite)
    {group : Group}
    (collected : Group.collect? suites operation = some group)
    {run : Command × Bool}
    (ofGroup : run.1 ∈ group.commands)
    {rest : List Job}
    (furnished : Furnished workingDir suites suite seen tree)
    (works : Works programs workingDir operation (once group run ++ rest) tree
      moments last) :
    ∃ moment middle later,
      Furnished workingDir suites suite (seen ++ [moment]) middle ∧
        Works programs workingDir operation rest middle later last ∧
        moments = moment :: later := by
  have locked := furnished.locked
  obtain ⟨owner, ownerMember, supported, isOwner⟩ :=
    exists_owner collected member ofGroup
  obtain ⟨prepared, prepares, _, kept⟩ :=
    prepared?_of_locked housed locked ownerMember operation
  obtain ⟨middle, later, succeed, worksRest, rfl⟩ := first_of_works ofGroup
    (locked owner ownerMember).1 supported prepares works
  have prepared_of : (suite = owner -> operation.clearsVenv = false) ->
      (∃ moment ∈ seen, Fills suite moment) ->
        prepared.Reaches workingDir suite.layout.venv :=
    fun isKept wasFilled => venv_of_prepared housed locked ownerMember member
      isKept prepares (furnished.filled wasFilled)
  refine ⟨_, middle, later, ⟨?_, ?_, ?_⟩, worksRest, rfl⟩
  · exact locked_of_succeed housed reliable
      (fun other otherMember => (locked other otherMember).1) ownerMember kept
      succeed
  · rintro ⟨moment, isSeen, fills⟩
    have wasFilled : moment ∈ seen ∨
        operation.step ≠ .lock ∧ suite.command? operation = some run.1 := by
      rcases List.mem_append.mp isSeen with earlier | isLast
      · exact .inl earlier
      · obtain rfl := List.mem_singleton.mp isLast
        exact .inr fills
    by_cases isOwn : suite = owner
    · obtain rfl := isOwn
      refine venv_of_succeed_own furnishes succeed fun isLock => ?_
      have earlier := wasFilled.resolve_right fun fillsNow => fillsNow.1 isLock
      refine prepared_of (fun _ => ?_) ⟨moment, earlier, fills⟩
      simp [Operation.clearsVenv, isLock]
    · have earlier := wasFilled.resolve_right fun fillsNow =>
        isOwn (isOwner fillsNow.2)
      exact venv_of_succeed housed reliable ownerMember member isOwn succeed
        (prepared_of (fun isOwn' => absurd isOwn' isOwn)
          ⟨moment, earlier, fills⟩)
  · refine furnished.finds.concat fun isNoop _ wasFilled => ?_
    obtain rfl : operation = .syncNoop := isNoop
    exact prepared_of (fun _ => by decide) wasFilled

/-! ## The runs of a group -/

/-- Runs of the commands of a group, one after another, find the virtual
environment if they may, and leave what runs have left. -/
theorem furnished_of_works
    (housed : Housed sessionDir suites)
    (reliable : Reliable programs workingDir suites)
    (member : suite ∈ suites)
    (furnishes : Furnishes programs workingDir suite)
    {group : Group}
    (collected : Group.collect? suites operation = some group)
    {runs : List (Command × Bool)}
    (ofGroup : ∀ run ∈ runs, run.1 ∈ group.commands)
    (furnished : Furnished workingDir suites suite seen tree)
    (works : Works programs workingDir operation (runs.flatMap (once group))
      tree moments last) :
    Furnished workingDir suites suite (seen ++ moments) last := by
  induction runs generalizing tree moments seen with
  | nil =>
      cases works
      simpa using furnished
  | cons run rest inductionHypothesis =>
      rw [List.forall_mem_cons] at ofGroup
      rw [List.flatMap_cons] at works
      obtain ⟨moment, middle, later, furnishedMiddle, worksRest, rfl⟩ :=
        furnished_of_first housed reliable member furnishes collected ofGroup.1
          furnished works
      rw [List.append_cons]
      exact inductionHypothesis ofGroup.2 furnishedMiddle worksRest

/-! ## Untimed runs first -/

/-- The run that a job is, if it is one. -/
def Job.run? : Job -> Option (Command × Bool)
  | .prepare _ => none
  | .invoke command timed => some (command, timed)

theorem runs_of_once
    (group : Group)
    (runs : List (Command × Bool)) :
    (runs.flatMap (once group)).filterMap Job.run? = runs := by
  induction runs with
  | nil => rfl
  | cons run rest inductionHypothesis =>
      rw [List.flatMap_cons, List.filterMap_append, inductionHypothesis]
      cases any : group.anyPrepare <;>
        simp [once, any, List.filterMap_cons, Job.run?]

/-- The moments of a plan are those of its runs up to where it stops. -/
theorem Works.runs_initial
    {jobs : List Job}
    (works : Works programs workingDir operation jobs tree moments last) :
    (moments.map fun moment => (moment.command, moment.timed)) <+:
        jobs.filterMap Job.run? ∧
      ∀ moment ∈ moments, moment.operation = operation := by
  induction works with
  | done tree => simp
  | prepare prepared later inductionHypothesis =>
      simpa [List.filterMap_cons, Job.run?] using inductionHypothesis
  | stop fails => simp
  | invoke read succeed later inductionHypothesis =>
      simpa [List.filterMap_cons, Job.run?] using inductionHypothesis
  | unread unread => simp [Job.run?]

/-- The timed runs of every command come after an untimed one. -/
theorem eachAfter_runsOf
    (group : Group)
    {warmup : Nat}
    (warms : 0 < warmup)
    (count : Nat -> Nat) :
    EachAfter (fun earlier run => run.2 = true -> (run.1, false) ∈ earlier)
      (runsOf group warmup count) := by
  refine EachAfter.flatten
    (fun early front run needed timed =>
      List.mem_append_right early (needed timed)) ?_
  intro runs member
  rw [List.mem_mapIdx] at member
  obtain ⟨index, inRange, rfl⟩ := member
  obtain ⟨others, rfl⟩ := Nat.exists_eq_succ_of_ne_zero (by omega : warmup ≠ 0)
  intro front run back split_eq timed
  have isRun : run.1 = group.commands[index] := by
    have present : run ∈ front ++ run :: back := by simp
    rw [← split_eq, List.mem_map] at present
    obtain ⟨_, _, rfl⟩ := present
    rfl
  cases front with
  | nil =>
      rw [List.replicate_succ, List.cons_append, List.map_cons,
        List.nil_append, List.cons.injEq] at split_eq
      rw [← split_eq.1] at timed
      cases timed
  | cons first rest =>
      rw [List.replicate_succ, List.cons_append, List.map_cons,
        List.cons_append, List.cons.injEq] at split_eq
      rw [isRun, ← split_eq.1]
      exact List.mem_cons_self ..

/-- So they do in the moments of a plan. -/
theorem warmedUp_of_works
    {group : Group}
    {warmup : Nat}
    (warms : 0 < warmup)
    {count : Nat -> Nat}
    (works : Works programs workingDir operation
      ((runsOf group warmup count).flatMap (once group)) tree moments last) :
    EachAfter WarmedUp moments := by
  obtain ⟨isPrefix, sameOperation⟩ := works.runs_initial
  rw [runs_of_once] at isPrefix
  have each := (eachAfter_runsOf group warms count).of_initial isPrefix
  rintro front moment back rfl timed
  have untimed := each
    (front.map fun earlier => (earlier.command, earlier.timed))
    (moment.command, moment.timed)
    (back.map fun later => (later.command, later.timed)) (by simp) timed
  obtain ⟨earlier, isEarlier, same⟩ := List.mem_map.mp untimed
  refine ⟨earlier, isEarlier, ?_, (Prod.mk.inj same).1⟩
  rw [sameOperation moment (by simp),
    sameOperation earlier (List.mem_append_left _ isEarlier)]

/-! ## The session -/

/-- Files that lead to what they led to before are furnished as before. -/
theorem Furnished.of_files
    {after : FileTree}
    (furnished : Furnished workingDir suites suite seen tree)
    (locked : Locked workingDir suites after)
    (reaches : tree.Reaches workingDir suite.layout.venv ->
      after.Reaches workingDir suite.layout.venv) :
    Furnished workingDir suites suite seen after where
  locked := locked
  filled := fun wasFilled => reaches (furnished.filled wasFilled)
  finds := furnished.finds

/-- Timing a group leaves what runs have left. -/
theorem furnished_of_times
    (housed : Housed sessionDir suites)
    (reliable : Reliable programs workingDir suites)
    (member : suite ∈ suites)
    (furnishes : Furnishes programs workingDir suite)
    {harness : Harness}
    {group : Group}
    (collected : Group.collect? suites operation = some group)
    (furnished : Furnished workingDir suites suite seen tree)
    (times : Times programs workingDir harness group tree moments last) :
    Furnished workingDir suites suite (seen ++ moments) last ∧
      (0 < harness.options.warmup -> EachAfter WarmedUp moments) := by
  obtain ⟨_, lockedLast⟩ := startsReady_of_times housed reliable collected
    furnished.locked times
  obtain ⟨count, middle, _, works, written⟩ := times
  refine ⟨?_, fun warms => warmedUp_of_works warms works⟩
  have operation_eq : group.operation = operation := by
    obtain ⟨rfl, _⟩ := (Group.collect?_eq_some_iff _ _ _).mp collected
    rfl
  rw [operation_eq] at works
  have furnishedMiddle := furnished_of_works housed reliable member furnishes
    collected (fun run => mem_of_mem_runsOf) furnished works
  rcases written with rfl | ⟨path, content, _, written⟩
  · exact furnishedMiddle
  · exact furnishedMiddle.of_files lockedLast fun reaches =>
      reaches.of_putsFile (FileTree.putsFile_of_write written)

/-- All that happens while groups are timed leaves what runs have left. -/
theorem robust_furnished
    (housed : Housed sessionDir suites)
    (reliable : Reliable programs workingDir suites)
    {journal : Journal}
    (isLog : NamedLog journal)
    (member : suite ∈ suites)
    (furnishes : Furnishes programs workingDir suite)
    (harness : Harness) :
    Robust programs workingDir harness suites journal fun seen tree =>
      Furnished workingDir suites suite seen tree ∧
        (0 < harness.options.warmup -> EachAfter WarmedUp seen) where
  log := by
    rintro seen file isFile content tree after appended ⟨furnished, warmed⟩
    have locked := sparedByLog_locked housed (fun _ => id) isLog file isFile
      content tree after appended furnished.locked
    exact ⟨furnished.of_files locked fun reaches =>
      reaches.of_putsFile (FileTree.putsFile_of_append appended), warmed⟩
  dirs := by
    rintro seen path tree after made ⟨furnished, warmed⟩
    have grows := FileTree.grows_of_makeDirs made
    exact ⟨furnished.of_files (furnished.locked.of_grows grows) fun reaches =>
      reaches.of_grows grows, warmed⟩
  times := by
    rintro operation group collected seen tree moments after times
      ⟨furnished, warmed⟩
    obtain ⟨furnishedLast, warmedLate⟩ := furnished_of_times housed reliable
      member furnishes collected furnished times
    refine ⟨furnishedLast, fun warms =>
      EachAfter.append ?_ (warmed warms) (warmedLate warms)⟩
    intro early front moment isWarm timed
    obtain ⟨earlier, isEarlier, same⟩ := isWarm timed
    exact ⟨earlier, List.mem_append_right early isEarlier, same⟩

end Runs
end Session
end LockBench
