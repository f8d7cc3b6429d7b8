import LockBench.Proofs.Session.Seeding
import LockBench.Proofs.Session.Separation

/-!
# What a run finds

A run looks for its fixture, for the binaries of each of its tools, and for its
timing program, before it makes anything.  The only processes that it starts
meanwhile ask what a shim stands for.  Tools without any binary are left out
afterwards, which leaves the suites of the others as they are.
-/

namespace LockBench

open LockBench.Action

variable {journal : Journal}

/-! ## Looking for files and programs -/

/-- What looking for things asks for: what paths lead to, what is in
directories, what the shim of a tool stands for, and notes. -/
inductive AsksToFind (journal : Journal) : Request -> Prop
  | note
      {request : Request}
      (noted : journal.Asks request) : AsksToFind journal request
  | variable (name : String) : AsksToFind journal (.variable name)
  | workingDir : AsksToFind journal .workingDir
  | kind (path : Path) : AsksToFind journal (.kind path)
  | rawKind (path : RawPath) : AsksToFind journal (.rawKind path)
  | entries (dir : Path) : AsksToFind journal (.entries dir)
  | shim (tool : Tool) :
      AsksToFind journal (.capture ⟨"pyenv", ["which", tool.name], [], none⟩)

section Looking

variable {asked : Request -> Prop}

theorem asksOnly_isFileAt
    (kinds : ∀ path, asked (.kind path))
    (rawKinds : ∀ path, asked (.rawKind path))
    (path : EntryPath) : (isFileAt path).AsksOnly asked := by
  have looks : (kindAt? path).AsksOnly asked := by
    cases path with
    | text path => exact asksOnly_request (kinds path)
    | raw path => exact asksOnly_request (rawKinds path)
  refine looks.bind ?_
  rintro (_ | _ | _) <;> exact asksOnly_pure _

theorem asksOnly_isFile
    (kinds : ∀ path, asked (.kind path))
    (path : Path) : (isFile path).AsksOnly asked := by
  refine .bind (asksOnly_request (kinds path)) ?_
  rintro (_ | _ | _) <;> exact asksOnly_pure _

namespace Fixture

theorem asksOnly_directoryNames
    (kinds : ∀ path, asked (.kind path))
    (rawKinds : ∀ path, asked (.rawKind path))
    (dir : Path)
    (names : List EntryName) :
    (directoryNames dir names).AsksOnly asked := by
  induction names with
  | nil => exact asksOnly_pure _
  | cons name rest inductionHypothesis =>
      refine inductionHypothesis.bind fun _ =>
        (asksOnly_isFileAt kinds rawKinds _).bind fun isThere => ?_
      cases isThere <;> exact asksOnly_pure _

theorem asksOnly_available
    (kinds : ∀ path, asked (.kind path))
    (rawKinds : ∀ path, asked (.rawKind path))
    (listings : ∀ dir, asked (.entries dir))
    (dir : Option Path) :
    (available dir).AsksOnly asked := by
  have finds : (foundIn dir).AsksOnly asked := by
    cases dir with
    | none => exact asksOnly_pure _
    | some dir =>
        refine .bind (asksOnly_request (listings dir)) ?_
        rintro (cause | names)
        · exact asksOnly_pure _
        · exact asksOnly_directoryNames kinds rawKinds dir names
  exact finds.bind fun _ => asksOnly_pure _

theorem asksOnly_firstFile?
    (kinds : ∀ path, asked (.kind path))
    (paths : List Path) :
    (firstFile? paths).AsksOnly asked := by
  induction paths with
  | nil => exact asksOnly_pure _
  | cons path rest inductionHypothesis =>
      refine (asksOnly_isFile kinds path).bind fun isThere => ?_
      cases isThere with
      | false => exact inductionHypothesis
      | true => exact asksOnly_pure _

theorem asksOnly_resolve?
    (kinds : ∀ path, asked (.kind path))
    (name : String)
    (dir : Option Path) :
    (resolve? name dir).AsksOnly asked := by
  refine (asksOnly_firstFile? kinds _).bind ?_
  rintro (_ | path) <;> exact asksOnly_pure _

end Fixture

namespace Discovery

theorem asksOnly_firstProgram?
    (kinds : ∀ path, asked (.kind path))
    (paths : List Path) :
    (firstProgram? paths).AsksOnly asked := by
  induction paths with
  | nil => exact asksOnly_pure _
  | cons path rest inductionHypothesis =>
      have looks : (isProgram path).AsksOnly asked :=
        (asksOnly_request (kinds path)).bind fun _ => asksOnly_pure _
      refine looks.bind fun isThere => ?_
      cases isThere with
      | false => exact inductionHypothesis
      | true => exact asksOnly_pure _

section Searching

variable (environment : ∀ name, asked (.variable name))
  (place : asked .workingDir) (kinds : ∀ path, asked (.kind path))
include environment place kinds

theorem asksOnly_which? (name : String) : (which? name).AsksOnly asked := by
  rw [which?]
  split
  · exact (asksOnly_request place).bind fun _ => asksOnly_firstProgram? kinds _
  · refine .bind (asksOnly_request (environment "PATH")) ?_
    rintro (_ | dirs)
    · exact asksOnly_pure _
    · exact (asksOnly_request (environment "HOME")).bind fun _ =>
        asksOnly_firstProgram? kinds _

theorem asksOnly_findBinary?
    {name : String}
    (shim : asked (.capture ⟨"pyenv", ["which", name], [], none⟩)) :
    (findBinary? name).AsksOnly asked := by
  have asks : ∀ found, (behindShim name found).AsksOnly asked := by
    intro found
    refine .bind (asksOnly_request shim) ?_
    rintro (cause | captured)
    · exact asksOnly_pure _
    · dsimp only
      split <;> exact asksOnly_pure _
  refine (asksOnly_which? environment place kinds _).bind ?_
  rintro (_ | found)
  · exact asksOnly_pure _
  · dsimp only
    split
    · exact (asks found).bind fun _ => asksOnly_pure _
    · exact asksOnly_pure _

theorem asksOnly_findHyperfine (chosen : Option Path) :
    (findHyperfine chosen).AsksOnly asked := by
  cases chosen with
  | none =>
      refine (asksOnly_which? environment place kinds _).bind ?_
      rintro (_ | path) <;> exact asksOnly_pure _
  | some path =>
      have looks : (pathExists path).AsksOnly asked :=
        (asksOnly_request (kinds path)).bind fun _ => asksOnly_pure _
      refine looks.bind fun isThere => ?_
      cases isThere <;> exact asksOnly_pure _

end Searching
end Discovery

namespace RunTask

theorem asksOnly_findFixture
    (kinds : ∀ path, asked (.kind path))
    (rawKinds : ∀ path, asked (.rawKind path))
    (listings : ∀ dir, asked (.entries dir))
    (task : RunTask)
    (config : Config) :
    (task.findFixture config).run.AsksOnly asked := by
  refine .run_bind (.run_lift (Fixture.asksOnly_resolve? kinds _ _)) ?_
  rintro (_ | fixture)
  · exact .run_bind (.run_lift
      (Fixture.asksOnly_available kinds rawKinds listings _)) fun _ =>
        asksOnly_pure _
  · exact asksOnly_pure _

theorem asksOnly_temporaryDir
    (environment : ∀ name, asked (.variable name))
    (place : asked .workingDir) : temporaryDir.AsksOnly asked := by
  refine .bind (asksOnly_request (environment _)) fun given => ?_
  dsimp only
  split
  · exact asksOnly_pure _
  · exact (asksOnly_request place).bind fun _ => asksOnly_pure _

end RunTask
end Looking

theorem Fixture.startsOnly_materialize
    {allowed : Spawn -> Prop}
    (sessionDir : Path)
    (fixture : Fixture) :
    (fixture.materialize sessionDir).StartsOnly allowed := by
  refine (asksOnly_materialize sessionDir fixture).startsNone
    fun request asked _ => ?_
  cases asked <;> rfl

/-- A process that asks what the shim of a tool stands for. -/
def IsLookup (spawn : Spawn) : Prop :=
  ∃ tool : Tool, spawn.launch = ⟨"pyenv", ["which", tool.name], [], none⟩

/-- What looking for things asks for is about processes that ask what shims
stand for. -/
theorem AsksToFind.isLookup
    {request : Request}
    (asked : AsksToFind journal request)
    (answer : request.Answer) :
    ∀ spawn ∈ Exchange.spawn? ⟨request, answer⟩, IsLookup spawn := by
  rintro spawn isSpawn
  cases asked with
  | note noted => cases noted <;> cases isSpawn
  | shim tool =>
      cases isSpawn
      exact ⟨tool, rfl⟩
  | _ => cases isSpawn

namespace RunTask

theorem asksOnly_findBinaries
    (task : RunTask)
    (journal : Journal)
    (config : Config)
    (tool : Tool) :
    (task.findBinaries journal config tool).AsksOnly (AsksToFind journal) := by
  rw [findBinaries]
  split
  · refine (Discovery.asksOnly_findBinary? .variable .workingDir .kind
      (.shim tool)).bind ?_
    rintro (_ | path)
    · exact ((asksOnly_note journal _).mono fun _ => .note).bind fun _ =>
        asksOnly_pure _
    · exact asksOnly_pure _
  · exact asksOnly_pure _
  · exact asksOnly_pure _

/-! ## Tools with and without binaries -/

/-- The binaries of some tools, also of those that have none. -/
def findAll
    (task : RunTask)
    (journal : Journal)
    (config : Config) : List Tool -> Action (List (Tool × List Path))
  | [] => return []
  | tool :: rest => do
    let binaries ← task.findBinaries journal config tool
    let others ← findAll task journal config rest
    return (tool, binaries) :: others

/-- The tools that have a binary. -/
def withBinaries
    (tools : List (Tool × List Path)) : List (Tool × List Path) :=
  tools.filter fun entry => !entry.2.isEmpty

theorem withBinaries_isEmpty_iff
    {tools : List (Tool × List Path)} :
    (withBinaries tools).isEmpty = true ↔ ∀ entry ∈ tools, entry.2 = [] := by
  rw [List.isEmpty_iff, withBinaries, List.filter_eq_nil_iff]
  simp

/-- The tools that are found are those of all tools that have a binary. -/
theorem findTools_eq
    (task : RunTask)
    (journal : Journal)
    (config : Config)
    (tools : List Tool) :
    task.findTools journal config tools =
      withBinaries <$> task.findAll journal config tools := by
  induction tools with
  | nil => rfl
  | cons tool rest inductionHypothesis =>
      rw [findTools, findAll, inductionHypothesis]
      simp only [map_bind, map_pure, bind_map_left, withBinaries,
        List.filter_cons]
      refine bind_congr fun binaries => bind_congr fun others => ?_
      cases binaries <;> rfl

theorem asksOnly_findAll
    (task : RunTask)
    (journal : Journal)
    (config : Config)
    (tools : List Tool) :
    (task.findAll journal config tools).AsksOnly (AsksToFind journal) := by
  induction tools with
  | nil => exact asksOnly_pure _
  | cons tool rest inductionHypothesis =>
      exact (asksOnly_findBinaries task journal config tool).bind fun _ =>
        inductionHypothesis.bind fun _ => asksOnly_pure _

/-- Every tool that is looked for is found with its binaries, in order. -/
theorem tools_of_yields
    {task : RunTask}
    {journal : Journal}
    {config : Config}
    {tools : List Tool}
    {transcript : List Exchange}
    {found : List (Tool × List Path)}
    (yields : (task.findAll journal config tools).Yields transcript found) :
    found.map Prod.fst = tools := by
  induction tools generalizing transcript found with
  | nil =>
      obtain ⟨-, rfl⟩ := yields_pure_iff.mp yields
      rfl
  | cons tool rest inductionHypothesis =>
      obtain ⟨binaries, _, _, -, searched, rfl⟩ := yields_bind_iff.mp yields
      obtain ⟨others, _, _, foundRest, ended, rfl⟩ :=
        yields_bind_iff.mp searched
      obtain ⟨-, rfl⟩ := yields_pure_iff.mp ended
      rw [List.map_cons, inductionHypothesis foundRest]

section Planning

variable (project : ProjectOptions) (sessionDir : Path)
  (tools : List (Tool × List Path))

/-- There is one suite for every binary, in order of the tools and within a
tool in order of its binaries. -/
theorem planSuites_in_order :
    (planSuites project sessionDir tools).map
        (fun suite => (suite.tool, suite.context.binary)) =
      tools.flatMap fun (tool, binaries) => binaries.map (tool, ·) := by
  rw [planSuites, List.map_flatMap]
  refine List.flatMap_congr fun (tool, binaries) _ => ?_
  dsimp only
  conv_rhs => rw [← Session.binaries_planContexts tool sessionDir binaries]
  rw [List.map_map, List.map_map]
  rfl

/-- Tools without any binary have no suite, and the other suites are the same
without them. -/
theorem planSuites_withBinaries :
    planSuites project sessionDir (withBinaries tools) =
      planSuites project sessionDir tools := by
  induction tools with
  | nil => rfl
  | cons entry rest inductionHypothesis =>
      obtain ⟨tool, binaries⟩ := entry
      rw [planSuites, planSuites] at inductionHypothesis
      cases binaries with
      | nil => simpa [planSuites, withBinaries, Session.planContexts]
          using inductionHypothesis
      | cons binary others =>
          rw [withBinaries, List.filter_cons_of_pos (by simp), planSuites,
            planSuites, List.flatMap_cons, List.flatMap_cons]
          exact congrArg _ inductionHypothesis

end Planning

/-! ## The search as a whole -/

/-- What a run has found before it makes anything. -/
structure Found where
  /-- The fixture. -/
  fixture : Fixture
  /-- All tools of the run with their binaries. -/
  tools : List (Tool × List Path)
  /-- The timing program. -/
  hyperfine : Path

/-- The part of a run that only looks for what it needs. -/
def seek
    (task : RunTask)
    (journal : Journal)
    (config : Config) : Attempt Found := do
  let fixture ← task.findFixture config
  let tools ← task.findAll journal config task.tools.selected
  let hyperfine ← Attempt.lift .discovery
    (Discovery.findHyperfine
      (task.hyperfine.or (config.hyperfinePath.map Path.mk)))
  return ⟨fixture, tools, hyperfine⟩

theorem startsOnly_attempt
    {allowed : Spawn -> Prop}
    {cause : ε -> Failure}
    {action : Action (Except ε α)}
    (starts : action.StartsOnly allowed) :
    (Attempt.lift cause action).run.StartsOnly allowed := by
  refine starts.bind ?_
  rintro (failure | value) <;> exact startsOnly_pure _

theorem asksOnly_seek
    (task : RunTask)
    (journal : Journal)
    (config : Config) :
    (task.seek journal config).run.AsksOnly (AsksToFind journal) := by
  have finds : (task.findFixture config).run.AsksOnly (AsksToFind journal) :=
    asksOnly_findFixture .kind .rawKind .entries task config
  exact finds.run_bind fun _ =>
    .run_bind (.run_lift (asksOnly_findAll _ _ _ _)) fun _ =>
    .run_bind (asksOnly_attempt
      (Discovery.asksOnly_findHyperfine .variable .workingDir .kind _))
      fun _ => asksOnly_pure _

/-- The search only asks what shims stand for. -/
theorem startsOnly_seek
    (task : RunTask)
    (journal : Journal)
    (config : Config) :
    (task.seek journal config).run.StartsOnly IsLookup :=
  (asksOnly_seek task journal config).startsOnly
    fun _ asked answer => asked.isLookup answer

/-- The tools that are found are those of the run, in order. -/
theorem tools_of_seek
    {task : RunTask}
    {journal : Journal}
    {config : Config}
    {transcript : List Exchange}
    {found : Found}
    (yields : (task.seek journal config).run.Yields transcript (.ok found)) :
    found.tools.map Prod.fst = task.tools.selected := by
  rw [seek, yields_run_bind_iff] at yields
  obtain ⟨_, -, ⟨⟩⟩ | ⟨fixture, _, _, -, searched, rfl⟩ := yields
  obtain ⟨tools, _, _, foundTools, located, -⟩ :=
    yields_run_lift_bind_iff.mp searched
  rw [yields_run_bind_iff] at located
  obtain ⟨_, -, ⟨⟩⟩ | ⟨hyperfine, _, _, -, ended, -⟩ := located
  obtain ⟨-, found_eq⟩ := yields_run_pure_iff.mp ended
  cases found_eq
  exact tools_of_yields foundTools

/-- A run looks for what it needs, leaves out the tools that have no binary,
and goes on with the others. -/
theorem perform_eq_seek
    (task : RunTask)
    (journal : Journal)
    (config : Config)
    (verbosity : Nat) :
    task.perform journal config verbosity = (do
      let found ← task.seek journal config
      if (withBinaries found.tools).isEmpty then throw .noTools
      let parent ← temporaryDir
      let sessionDir ← Attempt.lift .io
        (Action.makeFreshDir parent "bench-ripenv-")
      let result ← ExceptT.lift (task.session journal config verbosity
        found.fixture (withBinaries found.tools) found.hyperfine
        sessionDir).run
      Action.removeTree sessionDir
      Attempt.lift id (pure result)) := by
  rw [perform, seek, findTools_eq]
  simp only [bind_assoc, pure_bind, liftM_map, bind_map_left]

end RunTask
end LockBench
