import LockBench.Proofs.Session.Environments
import LockBench.Proofs.Session.Opening

/-!
# Syncs that are to find nothing to do

A session starts with locks only.  So the first sync of a suite finds no
virtual environment, also where it is to find everything as a sync leaves it.
Every later one does, and with untimed runs in front of the timed ones no timed
one is the first.
-/

namespace LockBench
namespace Session

/-- In every session that a run opens, whatever its operations are and in
whatever order, a sync that is to find nothing to do finds the virtual
environment of its suite, provided that it is timed after untimed runs or that
the suite has synced or installed before. -/
theorem noop_sync_finds_environment
    (task : RunTask)
    (journal : Journal)
    (config : Config)
    (verbosity : Nat)
    (programs : Programs)
    (workingDir : Location)
    (opened : RunTask.Opened)
    (isLog : NamedLog journal)
    {before made last : FileTree}
    {early moments : List Moment}
    {result : Except Failure Summary}
    (opens : (task.opening journal config).run.Runs
      (world programs workingDir (opened.harness task config verbosity)
        (opened.suites config)) before (.ok opened) early made)
    (reliable : Reliable programs workingDir (opened.suites config))
    {suite : Suite}
    (member : suite ∈ opened.suites config)
    (furnishes : Furnishes programs workingDir suite)
    (runs : (opened.session task journal config verbosity).run.Runs
      (world programs workingDir (opened.harness task config verbosity)
        (opened.suites config)) made result moments last)
    {front back : List Moment}
    {moment : Moment}
    (shown : moments = front ++ moment :: back)
    (isNoop : moment.operation = .syncNoop)
    (ofSuite : suite.command? .syncNoop = some moment.command)
    (notFirst : 0 < (task.harnessOptions config verbosity).warmup ∧
        moment.timed = true ∨
      ∃ earlier ∈ front, Fills suite earlier) :
    moment.tree.Reaches workingDir suite.layout.venv := by
  have housed := housed_of_opening opens
  have robust := robust_furnished housed reliable isLog member furnishes
    (opened.harness task config verbosity)
  have starts : ∀ tree, Locked workingDir (opened.suites config) tree ->
      Furnished workingDir (opened.suites config) suite [] tree ∧
        (0 < (opened.harness task config verbosity).options.warmup ->
          EachAfter WarmedUp []) := fun tree locked =>
    ⟨⟨locked, by simp, .nil⟩, fun _ => .nil⟩
  rcases carried_of_session task config verbosity opened.fixture opened.tools
    opened.hyperfine rfl rfl housed reliable isLog robust starts runs with
    rfl | ⟨left, furnished, warmed⟩
  · simp at shown
  · refine furnished.finds front moment back shown isNoop ofSuite ?_
    rcases notFirst with ⟨warms, timed⟩ | wasFilled
    · obtain ⟨earlier, isEarlier, operation_eq, command_eq⟩ :=
        warmed warms front moment back shown timed
      refine ⟨earlier, isEarlier, ?_, ?_⟩
      · rw [operation_eq, isNoop]
        decide
      · rw [operation_eq, isNoop, command_eq, ofSuite]
    · exact wasFilled

/-! ## A session that starts with such a sync -/

namespace FirstSync

/-- One binary of one tool, one operation, and two runs of it. -/
def task : RunTask where
  fixture := "/Pipfile"
  tools := { uv := true }
  paths := { uv := ["/bin/uv"] }
  operations := [.syncNoop]
  warmup := some 0
  runs := some 2
  hyperfine := some ⟨"/bin/hyperfine"⟩

/-- What the run finds. -/
def opened : RunTask.Opened where
  fixture := .file ⟨"/Pipfile"⟩
  tools := [(.uv, [⟨"/bin/uv"⟩])]
  hyperfine := ⟨"/bin/hyperfine"⟩
  sessionDir := ⟨"/tmp/bench-ripenv-0"⟩

/-- The only suite. -/
def suite : Suite where
  tool := .uv
  context := planContext .uv opened.sessionDir 1 0 ⟨"/bin/uv"⟩
  project := {}

/-- The command of the only operation. -/
def command : Command where
  name := suite.commandName .syncNoop
  invocation := suite.invocation .sync

/-- What the tool makes of the files: a lock writes the lockfile, and anything
else makes the virtual environment. -/
def made
    (launch : Launch)
    (tree : FileTree) : FileTree :=
  if launch.arguments.head? = some "lock" then
    tree.put suite.layout.lockfile.location (.file .empty false)
  else tree.put suite.layout.venv.location .directory

/-- What the tool does, as a relation. -/
def programs : Programs := fun launch tree after =>
  (Machine.holdsNul launch = false ∧
    after.HoldsFile [] suite.layout.lockfile ∧
      (launch.arguments.head? ≠ some "lock" ->
        after.Reaches [] suite.layout.venv)) ∧
    after = made launch tree

/-- What the tool does, if it does not fail. -/
def ran?
    (launch : Launch)
    (tree : FileTree) : Option FileTree :=
  if Machine.holdsNul launch = false ∧
      (made launch tree).HoldsFile [] suite.layout.lockfile ∧
        (launch.arguments.head? ≠ some "lock" ->
          (made launch tree).Reaches [] suite.layout.venv) then
    some (made launch tree)
  else none

theorem programs_of_ran?
    {launch : Launch}
    {tree after : FileTree}
    (ran : ran? launch tree = some after) : programs launch tree after := by
  rw [ran?] at ran
  split at ran
  · obtain rfl := Option.some.inj ran
    rename_i succeeds
    exact ⟨succeeds, rfl⟩
  · cases ran

/-- The timing program starts two runs, without preparations. -/
def timed
    (launch : Launch)
    (tree : FileTree) : Except OsError Exit × List Moment × FileTree :=
  match ran? (suite.launch .sync) tree with
  | none => (.error .unsupported, [], tree)
  | some middle =>
    match ran? (suite.launch .sync) middle with
    | none => (.error .unsupported, [], tree)
    | some after =>
      if OneLock.lastName? launch = some command.name then
        (.ok (.code 0),
          [⟨.syncNoop, command, true, tree⟩,
            ⟨.syncNoop, command, true, middle⟩], after)
      else (.error .unsupported, [], tree)

/-- The tool runs to its end and writes nothing to the console. -/
def captured
    (launch : Launch)
    (tree : FileTree) : Except OsError Captured × List Moment × FileTree :=
  match ran? launch tree with
  | none => (.error .unsupported, [], tree)
  | some after => (.ok ⟨.code 0, .empty, .empty⟩, [], after)

/-- A host with these programs. -/
def host : Action.Host Moment
  | .capture launch, tree => captured launch tree
  | .attend launch, tree => timed launch tree
  | request, tree => OneLock.host request tree

/-- A lock creates nothing but the lockfile. -/
theorem get?_of_lock
    {tree after : FileTree}
    (locks : programs (suite.launch .lock) tree after)
    {location : Location}
    (elsewhere : location ≠ suite.layout.lockfile.location) :
    after.get? location = tree.get? location := by
  obtain ⟨_, rfl⟩ := locks
  exact FileTree.get?_put_of_ne tree elsewhere _

theorem reliable : Reliable programs [] (opened.suites {}) := by
  change Reliable programs [] [suite]
  refine ⟨?_, ?_, ?_, ?_⟩
  · exact fun launch tree after runs => runs.1.1
  · rw [List.forall_mem_singleton]
    exact fun step _ tree after runs => runs.1.2.1
  · rw [List.forall_mem_singleton]
    exact fun tree after runs _ => runs.1.2.1
  · rw [List.forall_mem_singleton]
    rintro step tree after ⟨_, rfl⟩ location notOwned
    have ownsLockfile : suite.Owns suite.layout.lockfile.location :=
      .inl (by decide +kernel)
    have ownsVenv : suite.Owns suite.layout.venv.location :=
      .inl (by decide +kernel)
    rw [made]
    split
    · refine FileTree.get?_put_of_ne _ (fun same => notOwned ?_) _
      rw [same]
      exact ownsLockfile
    · refine FileTree.get?_put_of_ne _ (fun same => notOwned ?_) _
      rw [same]
      exact ownsVenv

theorem furnishes : Furnishes programs [] suite where
  keeps := by
    intro tree after locks reaches
    have absolute : suite.layout.venv.isAbsolute = true := by decide +kernel
    have elsewhere : ∀ location ∈
        suite.layout.venv.location :: suite.layout.venv.way,
        location ≠ suite.layout.lockfile.location := by decide +kernel
    refine reaches.congr absolute fun location isNeeded => ?_
    exact get?_of_lock locks (elsewhere location (by simp [isNeeded.symm]))
  makes := by
    intro step notLock tree after runs
    refine runs.1.2.2 ?_
    cases step with
    | lock => exact absurd rfl notLock
    | sync => decide
    | install => decide

/-- The runs that the timing program reports are those that it is asked for; no
other operation has a command of that name. -/
theorem times_of_timed
    {launch : Launch}
    {tree middle after : FileTree}
    (first : programs (suite.launch .sync) tree middle)
    (second : programs (suite.launch .sync) middle after)
    (named : OneLock.lastName? launch = some command.name)
    (operation : Operation)
    (other : Group)
    (collected : Group.collect? (opened.suites {}) operation = some other)
    (isLaunch : launch = (opened.harness task {} 0).launch other) :
    Times programs [] (opened.harness task {} 0) other tree
      [⟨.syncNoop, command, true, tree⟩, ⟨.syncNoop, command, true, middle⟩]
      after := by
  have sole : ∀ operation ∈ Operation.all,
      ∀ other ∈ Group.collect? [suite] operation,
        OneLock.lastName? ((opened.harness task {} 0).launch other) =
            some command.name ->
          operation = .syncNoop := by decide +kernel
  rw [isLaunch] at named
  obtain rfl := sole operation operation.mem_all other collected named
  have isGroup : Group.collect? [suite] .syncNoop =
      some ⟨.syncNoop, [command]⟩ := rfl
  obtain rfl : ⟨.syncNoop, [command]⟩ = other :=
    Option.some.inj (isGroup.symm.trans collected)
  have supported : suite.command? .syncNoop = some command := rfl
  have read := suite.launches?_shellLine (suite.nulFree_launch first.1.1 .lock)
    supported
  exact ⟨fun _ => 2, after, fun _ => rfl,
    .invoke read (.next first (.done middle))
      (.invoke read (.next second (.done after)) (.done after)),
    .inl rfl⟩

theorem possible_timed
    (launch : Launch)
    (tree : FileTree) :
    world programs [] (opened.harness task {} 0) (opened.suites {})
      (.attend launch) tree (timed launch tree).1 (timed launch tree).2.1
      (timed launch tree).2.2 := by
  rw [timed]
  split
  · exact ⟨rfl, rfl⟩
  split
  · exact ⟨rfl, rfl⟩
  split
  · rename_i first _ _ second named
    exact times_of_timed (programs_of_ran? first) (programs_of_ran? second)
      named
  · exact ⟨rfl, rfl⟩

theorem possible_captured
    (launch : Launch)
    (tree : FileTree) :
    world programs [] (opened.harness task {} 0) (opened.suites {})
      (.capture launch) tree (captured launch tree).1 (captured launch tree).2.1
      (captured launch tree).2.2 := by
  rw [captured]
  split
  · exact ⟨rfl, rfl⟩
  · rename_i ran
    exact ⟨rfl, fun _ => programs_of_ran? ran⟩

/-- All that the host answers is possible. -/
theorem possible
    (request : Request)
    (tree : FileTree) :
    world programs [] (opened.harness task {} 0) (opened.suites {}) request tree
      (host request tree).1 (host request tree).2.1
      (host request tree).2.2 := by
  have shared := OneLock.possible request tree
  cases request with
  | capture launch => exact possible_captured launch tree
  | attend launch => exact possible_timed launch tree
  | _ => exact shared

/-- The files when the session starts. -/
def start : FileTree :=
  ((task.opening {} {}).run.on host OneLock.files).2.2

/-- The session on this host, with the moments that are observed. -/
def ran : Except Failure Summary × List Moment × FileTree :=
  (opened.session task {} {} 0).run.on host start

/-- The run opens the session. -/
theorem opens :
    ∃ moments, (task.opening {} {}).run.Runs
      (world programs [] (opened.harness task {} 0) (opened.suites {}))
      OneLock.files (.ok opened) moments start := by
  have runs := Action.runs_on possible (task.opening {} {}).run OneLock.files
  exact ⟨_, runs⟩

/-- The session runs as its world allows. -/
theorem runs_ran :
    (opened.session task {} {} 0).run.Runs
      (world programs [] (opened.harness task {} 0) (opened.suites {})) start
      ran.1 ran.2.1 ran.2.2 := by
  rw [ran]
  exact Action.runs_on possible (opened.session task {} {} 0).run start

/-- The session ends well and starts two syncs, the first of them where no
virtual environment is. -/
theorem ran_eq :
    ran.1.isOk = true ∧ ∃ first second, ran.2.1 = [first, second] ∧
      (first.operation = .syncNoop ∧ first.command = command ∧
        first.timed = true ∧ ¬first.tree.Reaches [] suite.layout.venv) ∧
      second.operation = .syncNoop ∧ second.command = command ∧
      second.timed = true := by
  have shape : (ran.1.isOk, ran.2.1.map fun moment =>
      ((moment.operation, moment.command, moment.timed),
        decide (moment.tree.Reaches [] suite.layout.venv))) =
        (true, [((.syncNoop, command, true), false),
          ((.syncNoop, command, true), true)]) := by
    decide +kernel
  obtain ⟨isOk, observed_eq⟩ := Prod.mk.inj shape
  obtain ⟨first, rest, moments_eq, first_eq, rest_eq⟩ :=
    List.map_eq_cons_iff.mp observed_eq
  obtain ⟨second, others, rfl, second_eq, others_eq⟩ :=
    List.map_eq_cons_iff.mp rest_eq
  obtain rfl := List.map_eq_nil_iff.mp others_eq
  simp only [Prod.mk.injEq, decide_eq_false_iff_not] at first_eq second_eq
  obtain ⟨⟨isNoop, command_eq, isTimed⟩, missing⟩ := first_eq
  exact ⟨isOk, first, second, moments_eq,
    ⟨isNoop, command_eq, isTimed, missing⟩, second_eq.1⟩

end FirstSync

/-- The second sync finds the virtual environment that the first one left. -/
theorem noop_sync_finds_environment_second :
    ∃ first second, FirstSync.ran.2.1 = [first, second] ∧
      Fills FirstSync.suite first ∧ second.operation = .syncNoop ∧
      second.tree.Reaches [] FirstSync.suite.layout.venv := by
  obtain ⟨_, first, second, shown, ⟨isSync, firstCommand, _⟩, isNoop,
    secondCommand, _⟩ := FirstSync.ran_eq
  have supported : FirstSync.suite.command? .syncNoop =
      some FirstSync.command := rfl
  have fills : Fills FirstSync.suite first := by
    refine ⟨?_, ?_⟩
    · rw [isSync]
      decide
    · rw [isSync, firstCommand, supported]
  refine ⟨first, second, shown, fills, isNoop, ?_⟩
  obtain ⟨early, opens⟩ := FirstSync.opens
  have afterFirst : FirstSync.ran.2.1 = [first] ++ second :: [] := shown
  exact noop_sync_finds_environment FirstSync.task {} {} 0 FirstSync.programs []
    FirstSync.opened (by simp [NamedLog]) opens FirstSync.reliable
    (List.mem_singleton_self FirstSync.suite) FirstSync.furnishes
    FirstSync.runs_ran afterFirst isNoop (by rw [secondCommand, supported])
    (.inr ⟨first, List.mem_singleton_self first, fills⟩)

/-- Without untimed runs, a sync that is to find nothing to do is timed where no
virtual environment is, though all tools succeed: a lock creates the lockfile
only, and a sync leaves a virtual environment. -/
theorem first_noop_sync_without_environment :
    (∃ early, (FirstSync.task.opening {} {}).run.Runs
      (world FirstSync.programs [] (FirstSync.opened.harness FirstSync.task {} 0)
        (FirstSync.opened.suites {})) OneLock.files (.ok FirstSync.opened) early
        FirstSync.start) ∧
      (FirstSync.opened.session FirstSync.task {} {} 0).run.Runs
        (world FirstSync.programs []
          (FirstSync.opened.harness FirstSync.task {} 0)
          (FirstSync.opened.suites {})) FirstSync.start FirstSync.ran.1
        FirstSync.ran.2.1 FirstSync.ran.2.2 ∧
      FirstSync.ran.1.isOk = true ∧
      Reliable FirstSync.programs [] (FirstSync.opened.suites {}) ∧
      Furnishes FirstSync.programs [] FirstSync.suite ∧
      (∀ tree after,
        FirstSync.programs (FirstSync.suite.launch .lock) tree after ->
          ∀ location ≠ FirstSync.suite.layout.lockfile.location,
            after.get? location = tree.get? location) ∧
      ∃ moment ∈ FirstSync.ran.2.1, moment.operation = .syncNoop ∧
        FirstSync.suite.command? .syncNoop = some moment.command ∧
        moment.timed = true ∧
        ¬moment.tree.Reaches [] FirstSync.suite.layout.venv := by
  obtain ⟨isOk, first, second, shown, ⟨isNoop, command_eq, isTimed, missing⟩,
    _⟩ := FirstSync.ran_eq
  refine ⟨FirstSync.opens, FirstSync.runs_ran, isOk, FirstSync.reliable,
    FirstSync.furnishes,
    fun tree after locks location => FirstSync.get?_of_lock locks,
    first, by simp [shown], isNoop, ?_, isTimed, missing⟩
  rw [command_eq]
  rfl

end Session
end LockBench
