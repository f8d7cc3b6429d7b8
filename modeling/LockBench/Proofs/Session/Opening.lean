import LockBench.Program
import LockBench.Proofs.Session.Course

/-!
# Sessions that a run opens

A run finds what it needs and makes a session's directory before anything
else.  By then its tools are different ones, the directory is given by an
absolute path and has just been made, so that its suites are housed and all
timed runs of the session start in the state that their operation promises.
-/

namespace LockBench

/-- What a run has found when its session starts. -/
structure RunTask.Opened where
  /-- The fixture. -/
  fixture : Fixture
  /-- The tools with their binaries. -/
  tools : List (Tool × List Path)
  /-- The timing program. -/
  hyperfine : Path
  /-- The session's directory. -/
  sessionDir : Path

namespace RunTask

/-- The suites of a session that was opened. -/
def Opened.suites
    (opened : Opened)
    (config : Config) : List Suite :=
  planSuites (config.projectOptions none none) opened.sessionDir opened.tools

/-- The timing program of a session that was opened, with its options. -/
def Opened.harness
    (opened : Opened)
    (task : RunTask)
    (config : Config)
    (verbosity : Nat) : Harness :=
  ⟨opened.hyperfine, task.harnessOptions config verbosity⟩

/-- The part of a run that comes before its session. -/
def opening
    (task : RunTask)
    (journal : Journal)
    (config : Config) : Attempt Opened := do
  let fixture ← task.findFixture config
  let tools ← task.findTools journal config task.tools.selected
  let hyperfine ← Attempt.lift .discovery
    (Discovery.findHyperfine
      (task.hyperfine.or (config.hyperfinePath.map Path.mk)))
  if tools.isEmpty then throw .noTools
  let parent ← temporaryDir
  let sessionDir ← Attempt.lift .io
    (Action.makeFreshDir parent "bench-ripenv-")
  return ⟨fixture, tools, hyperfine, sessionDir⟩

/-- The session that a run has opened. -/
def Opened.session
    (opened : Opened)
    (task : RunTask)
    (journal : Journal)
    (config : Config)
    (verbosity : Nat) : Attempt Summary :=
  task.session journal config verbosity opened.fixture opened.tools
    opened.hyperfine opened.sessionDir

/-- A run opens its session, carries it out, and removes its directory. -/
theorem perform_eq_opening
    (task : RunTask)
    (journal : Journal)
    (config : Config)
    (verbosity : Nat) :
    task.perform journal config verbosity = (do
      let opened ← task.opening journal config
      let result ← ExceptT.lift
        (opened.session task journal config verbosity).run
      Action.removeTree opened.sessionDir
      Attempt.lift id (pure result)) := by
  simp only [perform, opening, bind_assoc]
  refine bind_congr fun fixture => bind_congr fun tools =>
    bind_congr fun hyperfine => ?_
  split <;> simp only [bind_assoc, pure_bind] <;> rfl

end RunTask

namespace Session

section Opening

variable {programs : Programs} {workingDir : Location} {harness : Harness}
  {suites : List Suite}

/-! ## What a run has found -/

/-- The tools that are asked for are different ones. -/
theorem nodup_selected (switches : ToolSwitches) : switches.selected.Nodup := by
  have nodup_all : Tool.all.Nodup := by decide
  rw [ToolSwitches.selected]
  split
  · exact nodup_all
  · exact nodup_all.filter _

/-- The tools that are found are among those that are searched for, in their
order. -/
theorem ensures_findTools
    {world : World Moment}
    (task : RunTask)
    (journal : Journal)
    (config : Config)
    (tools : List Tool)
    (tree : FileTree) :
    (task.findTools journal config tools).Ensures world (fun _ => True)
      (fun found _ => (found.map Prod.fst).Sublist tools) tree := by
  induction tools generalizing tree with
  | nil => exact List.Sublist.refl []
  | cons tool rest inductionHypothesis =>
      rw [RunTask.findTools, Action.ensures_bind]
      refine (Action.ensures_nothing _ tree).mono fun binaries middle _ => ?_
      rw [Action.ensures_bind]
      refine (inductionHypothesis middle).mono fun others last found => ?_
      rw [Action.ensures_pure]
      split
      · exact found.cons tool
      · exact found.cons_cons tool

/-- The directory of temporary files is given by an absolute path. -/
theorem ensures_temporaryDir (tree : FileTree) :
    RunTask.temporaryDir.Ensures (world programs workingDir harness suites)
      (fun _ => True) (fun dir _ => dir.isAbsolute = true) tree := by
  rw [RunTask.temporaryDir, Action.ensures_bind]
  refine (Action.ensures_nothing _ tree).mono fun asked middle _ => ?_
  dsimp only
  split
  · assumption
  · rw [Action.ensures_bind]
    rintro answer moments last ⟨absolute, rfl, rfl⟩
    exact ⟨by simp, Path.isAbsolute_join absolute _⟩

/-- A run that opens a session has found different tools, and it has just made
the session's directory, whose path is absolute. -/
theorem ensures_opening
    (task : RunTask)
    (journal : Journal)
    (config : Config)
    (tree : FileTree) :
    (task.opening journal config).run.Ensures
      (world programs workingDir harness suites) (fun _ => True)
      (fun result made => ∀ opened, result = .ok opened ->
        (opened.tools.map Prod.fst).Nodup ∧
          opened.sessionDir.isAbsolute = true ∧
          ∃ before : FileTree,
            before.makeDir workingDir opened.sessionDir = .ok made) tree := by
  rw [RunTask.opening, Action.ensures_run_bind]
  apply (Action.ensures_nothing _ tree).mono
  rintro (failure | fixture) first _
  · rintro opened ⟨⟩
  dsimp only
  rw [Action.ensures_run_bind, Action.ensures_run_lift]
  apply (ensures_findTools task journal config _ first).mono
  intro tools second found
  dsimp only
  rw [Action.ensures_run_bind]
  apply (Action.ensures_nothing _ second).mono
  rintro (failure | hyperfine) third _
  · rintro opened ⟨⟩
  dsimp only
  split
  · rintro opened ⟨⟩
  rw [Action.ensures_run_bind, Action.ensures_run_lift]
  apply (ensures_temporaryDir third).mono
  intro parent fourth absolute
  dsimp only
  rw [Action.ensures_run_bind, ensures_attempt]
  rintro (cause | sessionDir) moments made ⟨rfl, answered⟩
  · exact ⟨by simp, fun opened isOk => by cases isOk⟩
  · obtain ⟨⟨ending, rfl⟩, fresh⟩ := answered
    refine ⟨by simp, fun opened isOk => ?_⟩
    cases isOk
    exact ⟨(nodup_selected task.tools).sublist found,
      Path.isAbsolute_join absolute _, fourth, fresh⟩

/-- The log of an instruction has the name of a log. -/
theorem ensures_startJournal
    {world : World Moment}
    (colored : Bool)
    (verbosity : Nat)
    (tree : FileTree) :
    (Program.startJournal colored verbosity).Ensures world (fun _ => True)
      (fun journal _ => NamedLog journal) tree := by
  rw [Program.startJournal, Action.ensures_bind]
  apply (Action.ensures_nothing _ tree).mono
  rintro (_ | dir) first _
  · rw [Action.ensures_bind]
    refine (Action.ensures_nothing _ first).mono fun _ _ _ => ?_
    simp [NamedLog]
  dsimp only
  rw [Action.ensures_bind, Journal.start, Action.ensures_bind]
  apply (Action.ensures_nothing _ first).mono
  rintro (cause | made) second _
  · dsimp only
    rw [Action.ensures_pure, Action.ensures_bind]
    refine (Action.ensures_nothing _ second).mono fun _ _ _ => ?_
    simp [NamedLog]
  dsimp only
  rw [Action.ensures_bind]
  refine (Action.ensures_nothing _ second).mono fun isThere third _ => ?_
  have named : NamedLog
      { verbosity, colored, file := some (dir.join Journal.fileName) } := by
    rintro file ⟨⟩
    exact ⟨dir, rfl⟩
  cases isThere with
  | false => exact named
  | true =>
      simp only [if_true, Action.ensures_bind]
      exact (Action.ensures_nothing _ third).mono fun _ _ _ => named

/-! ## Sessions start their runs as promised -/

/-- The suites of a session that was opened are housed. -/
theorem housed_of_opening
    {task : RunTask}
    {journal : Journal}
    {config : Config}
    {opened : RunTask.Opened}
    {before made : FileTree}
    {moments : List Moment}
    (opens : (task.opening journal config).run.Runs
      (world programs workingDir harness suites) before (.ok opened) moments
      made) :
    Housed opened.sessionDir (opened.suites config) := by
  obtain ⟨_, found⟩ := opens.of_ensures
    (ensures_opening task journal config before)
  obtain ⟨different, absolute, _, fresh⟩ := found opened rfl
  exact housed_planSuites absolute fresh different

/-- In every session that a run opens, whatever its operations are and however
often they are timed, each run of a suite's command starts in the state that
its operation promises, if all tools are reliable and succeed. -/
theorem opened_session_starts_ready
    (task : RunTask)
    (journal : Journal)
    (config : Config)
    (verbosity : Nat)
    (programs : Programs)
    (workingDir : Location)
    (opened : RunTask.Opened)
    (isLog : NamedLog journal)
    {before made last : FileTree}
    {early moments : List Moment}
    {result : Except Failure Summary}
    (opens : (task.opening journal config).run.Runs
      (world programs workingDir (opened.harness task config verbosity)
        (opened.suites config)) before (.ok opened) early made)
    (reliable : Reliable programs workingDir (opened.suites config))
    (runs : (opened.session task journal config verbosity).run.Runs
      (world programs workingDir (opened.harness task config verbosity)
        (opened.suites config)) made result moments last) :
    ∀ moment ∈ moments,
      StartsReady workingDir (opened.suites config) moment := by
  have ensures := ensures_session task config verbosity opened.fixture
    opened.tools opened.hyperfine rfl rfl (housed_of_opening opens) reliable
    isLog made
  exact (runs.of_ensures ensures).1

end Opening

/-! ## A session that times one lock -/

namespace OneLock

/-- One binary of one tool, one operation, and one run of it. -/
def task : RunTask where
  fixture := "/Pipfile"
  tools := { ripenv := true }
  paths := { ripenv := ["/bin/ripenv"] }
  operations := [.lockCold]
  warmup := some 0
  runs := some 1
  hyperfine := some ⟨"/bin/hyperfine"⟩

/-- What the run finds. -/
def opened : RunTask.Opened where
  fixture := .file ⟨"/Pipfile"⟩
  tools := [(.ripenv, [⟨"/bin/ripenv"⟩])]
  hyperfine := ⟨"/bin/hyperfine"⟩
  sessionDir := ⟨"/tmp/bench-ripenv-0"⟩

/-- The only suite. -/
def suite : Suite where
  tool := .ripenv
  context := planContext .ripenv opened.sessionDir 1 0 ⟨"/bin/ripenv"⟩
  project := {}

/-- The files at first. -/
def files : FileTree :=
  ⟨[(["tmp"], .directory), (["Pipfile"], .file .empty false)]⟩

/-- What the tool does: it writes its lockfile, or it fails. -/
def locked?
    (launch : Launch)
    (tree : FileTree) : Option FileTree :=
  let after :=
    tree.put suite.layout.lockfile.location (.file .empty false)
  if Machine.holdsNul launch = false ∧
      after.HoldsFile [] suite.layout.lockfile then some after
  else none

/-- The command of the only operation. -/
def command : Command where
  name := suite.commandName .lockCold
  prepare := suite.layout.prepare? .lockCold
  environment := suite.environment
  workingDir := suite.directory
  invocation := suite.invocation .lock

/-- The group of the only operation. -/
def group : Group := ⟨.lockCold, [command]⟩

/-- A change that may fail, as a host answers it. -/
def taking
    (changed : Except OsError FileTree)
    (tree : FileTree) : Except OsError Unit × List Moment × FileTree :=
  match changed with
  | .ok done => (.ok (), [], done)
  | .error cause => (.error cause, [], tree)

/-- The name of the last command that a timing program is given. -/
def lastName? (launch : Launch) : Option String :=
  launch.arguments.dropLast.getLast?

/-- The timing program prepares one run and starts it. -/
def timed
    (launch : Launch)
    (tree : FileTree) : Except OsError Exit × List Moment × FileTree :=
  match Shell.Removal.performAll? [] tree (suite.layout.removals .lockCold) with
  | none => (.error .unsupported, [], tree)
  | some prepared =>
    match locked? (suite.launch .lock) prepared with
    | none => (.error .unsupported, [], tree)
    | some after =>
      if lastName? launch = some command.name then
        (.ok (.code 0),
          [⟨.lockCold, command, true, prepared⟩], after)
      else (.error .unsupported, [], tree)

/-- A fresh directory has a number at the end of its name. -/
def freshDir
    (path : Path)
    (tree : FileTree) : Except OsError Path × List Moment × FileTree :=
  match tree.makeDir [] path with
  | .ok made => (.ok path, [], made)
  | .error cause => (.error cause, [], tree)

/-- The tool runs to its end and writes nothing to the console. -/
def captured
    (launch : Launch)
    (tree : FileTree) : Except OsError Captured × List Moment × FileTree :=
  match locked? launch tree with
  | none => (.error .unsupported, [], tree)
  | some after => (.ok ⟨.code 0, .empty, .empty⟩, [], after)

/-- A host with these files and programs. -/
def host : Action.Host Moment
  | .variable _, tree => (none, [], tree)
  | .workingDir, tree => (⟨"/"⟩, [], tree)
  | .kind _, tree => (some (.file true), [], tree)
  | .rawKind _, tree => (none, [], tree)
  | .read path, tree => (tree.read [] path, [], tree)
  | .rawRead _, tree => (.error .noSuchFile, [], tree)
  | .write path content, tree => taking (tree.write [] path content) tree
  | .append path content, tree => taking (tree.append [] path content) tree
  | .copy source target, tree => taking (tree.copy [] source target) tree
  | .makeDirs path, tree => taking (tree.makeDirs [] path) tree
  | .entries _, tree => (.error .unsupported, [], tree)
  | .removeFile path, tree => taking (tree.removeFile [] path) tree
  | .makeFreshDir parent stem, tree => freshDir (parent.join (stem ++ "0")) tree
  | .removeTree path, tree => ((), [], tree.removeTree [] path)
  | .capture launch, tree => captured launch tree
  | .attend launch, tree => timed launch tree
  | .clock, tree => ("", [], tree)
  | .print _, tree => ((), [], tree)
  | .printError _, tree => ((), [], tree)

/-- What the tool does, as a relation. -/
def programs : Programs := fun launch tree after =>
  locked? launch tree = some after

theorem programs_iff
    (launch : Launch)
    (tree after : FileTree) :
    programs launch tree after ↔
      Machine.holdsNul launch = false ∧
        after.HoldsFile [] suite.layout.lockfile ∧
        after =
          tree.put suite.layout.lockfile.location (.file .empty false) := by
  rw [programs, locked?]
  constructor
  · intro locks
    split at locks
    · obtain rfl := Option.some.inj locks
      rename_i succeeds
      exact ⟨succeeds.1, succeeds.2, rfl⟩
    · cases locks
  · rintro ⟨startable, holds, rfl⟩
    exact if_pos ⟨startable, holds⟩

theorem writable : suite.layout.Writable where
  nulFree := by decide +kernel
  absolute := by decide +kernel

theorem reliable : Reliable programs [] (opened.suites {}) := by
  change Reliable programs [] [suite]
  have writes : ∀ launch tree after, programs launch tree after ->
      after.HoldsFile [] suite.layout.lockfile := fun launch tree after locks =>
    ((programs_iff launch tree after).mp locks).2.1
  refine ⟨?_, ?_, ?_, ?_⟩
  · exact fun launch tree after locks =>
      ((programs_iff launch tree after).mp locks).1
  · rw [List.forall_mem_singleton]
    exact fun _ _ => writes _
  · rw [List.forall_mem_singleton]
    exact fun tree after locks _ => writes _ tree after locks
  · rw [List.forall_mem_singleton]
    intro step tree after locks location notOwned
    obtain ⟨_, _, rfl⟩ := (programs_iff _ _ _).mp locks
    have owns : suite.Owns suite.layout.lockfile.location :=
      .inl (by decide +kernel)
    refine FileTree.get?_put_of_ne _ (fun same => notOwned ?_) _
    rw [same]
    exact owns

/-- The run that the timing program reports is the one that it is asked for;
no other operation has a command of that name. -/
theorem times_of_timed
    {launch : Launch}
    {tree prepared after : FileTree}
    (prepares : Shell.Removal.performAll? [] tree
      (suite.layout.removals .lockCold) = some prepared)
    (locks : programs (suite.launch .lock) prepared after)
    (named : lastName? launch = some command.name)
    (operation : Operation)
    (other : Group)
    (collected : Group.collect? (opened.suites {}) operation = some other)
    (isLaunch : launch = (opened.harness task {} 0).launch other) :
    Times programs [] (opened.harness task {} 0) other tree
      [⟨.lockCold, command, true, prepared⟩] after := by
  have sole : ∀ operation ∈ Operation.all,
      ∀ other ∈ Group.collect? [suite] operation,
        lastName? ((opened.harness task {} 0).launch other) =
            some command.name ->
          operation = .lockCold := by decide +kernel
  rw [isLaunch] at named
  obtain rfl := sole operation operation.mem_all other collected named
  have isGroup : Group.collect? [suite] .lockCold = some group := rfl
  obtain rfl : group = other := Option.some.inj (isGroup.symm.trans collected)
  have supported : suite.command? .lockCold = some command := rfl
  have prepared_eq : Shell.run? [] tree (command.prepare.getD Harness.idle) =
      some prepared :=
    (run?_prepare supported).trans
      ((StateLayout.prepared?_eq writable _ _ _).trans prepares)
  have startable := ((programs_iff _ _ _).mp locks).1
  have read := suite.launches?_shellLine startable supported
  exact ⟨fun _ => 1, after, fun _ => rfl,
    .prepare prepared_eq (.invoke read (.next locks (.done after)) (.done after)),
    .inl rfl⟩

theorem possible_timed
    (launch : Launch)
    (tree : FileTree) :
    world programs [] (opened.harness task {} 0) (opened.suites {})
      (.attend launch) tree (timed launch tree).1 (timed launch tree).2.1
      (timed launch tree).2.2 := by
  rw [timed]
  split
  · exact ⟨rfl, rfl⟩
  split
  · exact ⟨rfl, rfl⟩
  split
  · rename_i prepares _ _ locks named
    exact times_of_timed prepares locks named
  · exact ⟨rfl, rfl⟩

theorem possible_captured
    (launch : Launch)
    (tree : FileTree) :
    world programs [] (opened.harness task {} 0) (opened.suites {})
      (.capture launch) tree (captured launch tree).1 (captured launch tree).2.1
      (captured launch tree).2.2 := by
  rw [captured]
  split
  · exact ⟨rfl, rfl⟩
  · rename_i locks
    exact ⟨rfl, fun _ => locks⟩

theorem possible_freshDir
    (parent : Path)
    (stem : String)
    (tree : FileTree) :
    let made := freshDir (parent.join (stem ++ "0")) tree
    world programs [] (opened.harness task {} 0) (opened.suites {})
      (.makeFreshDir parent stem) tree made.1 made.2.1 made.2.2 := by
  dsimp only
  rw [freshDir]
  split
  · rename_i made_eq
    exact ⟨rfl, ⟨"0", rfl⟩, made_eq⟩
  · exact ⟨rfl, rfl⟩

/-- All that the host answers is possible. -/
theorem possible
    (request : Request)
    (tree : FileTree) :
    world programs [] (opened.harness task {} 0) (opened.suites {}) request tree
      (host request tree).1 (host request tree).2.1
      (host request tree).2.2 := by
  have absolute : Path.isAbsolute ⟨"/"⟩ = true := by decide
  have takes : ∀ changed, Takes changed tree (taking changed tree).1
      (taking changed tree).2.2 ∧ (taking changed tree).2.1 = [] := by
    rintro (cause | done) <;> simp [Takes, taking]
  cases request with
  | workingDir => exact ⟨absolute, rfl, rfl⟩
  | read path => exact ⟨rfl, rfl, rfl⟩
  | write path content => exact takes _
  | append path content => exact takes _
  | copy source target => exact takes _
  | makeDirs path => exact takes _
  | removeFile path => exact takes _
  | makeFreshDir parent stem => exact possible_freshDir parent stem tree
  | capture launch => exact possible_captured launch tree
  | attend launch => exact possible_timed launch tree
  | _ => exact ⟨rfl, rfl⟩

end OneLock

/-- The one run is observed, and it finds no lockfile. -/
theorem opened_session_starts_ready_oneLock :
    let made := ((OneLock.task.opening {} {}).run.on OneLock.host
      OneLock.files).2.2
    let observed := ((OneLock.opened.session OneLock.task {} {} 0).run.on
      OneLock.host made).2.1
    observed.length = 1 ∧ ∀ moment ∈ observed,
      StartsReady [] (OneLock.opened.suites {}) moment := by
  refine ⟨by decide +kernel, ?_⟩
  have opens : (OneLock.task.opening {} {}).run.Runs
      (world OneLock.programs [] (OneLock.opened.harness OneLock.task {} 0)
        (OneLock.opened.suites {})) OneLock.files (.ok OneLock.opened) _ _ :=
    Action.runs_on OneLock.possible _ _
  exact opened_session_starts_ready OneLock.task {} {} 0 OneLock.programs []
    OneLock.opened (by simp [NamedLog]) opens OneLock.reliable
    (Action.runs_on OneLock.possible _ _)

end Session
end LockBench
