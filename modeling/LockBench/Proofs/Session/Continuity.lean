import LockBench.Proofs.Host.Histories
import LockBench.Proofs.Session.Course

/-!
# What a session carries on

Moments are shown only where groups are timed.  So what is said of the moments
up to some point and of the files at that point is carried through a session,
if every timed group carries it on and if writing to the log and making
directories keeps it.
-/

namespace LockBench
namespace Session

/-- What is said of moments and files withstands all that happens while groups
are timed. -/
structure Robust
    (programs : Programs)
    (workingDir : Location)
    (harness : Harness)
    (suites : List Suite)
    (journal : Journal)
    (kept : List Moment -> FileTree -> Prop) : Prop where
  /-- The log may be written to. -/
  log : ∀ seen, SparedByLog workingDir journal (kept seen)
  /-- Directories may be made. -/
  dirs : ∀ seen path tree after, tree.makeDirs workingDir path = .ok after ->
    kept seen tree -> kept seen after
  /-- Groups may be timed. -/
  times : ∀ operation group, Group.collect? suites operation = some group ->
    ∀ seen tree moments after,
      Times programs workingDir harness group tree moments after ->
        kept seen tree -> kept (seen ++ moments) after

variable {programs : Programs} {workingDir : Location} {harness : Harness}
  {suites : List Suite} {journal : Journal}
  {kept : List Moment -> FileTree -> Prop}

/-! ## Timing -/

/-- Timing operations one after another carries on what is robust. -/
theorem carries_timeGroups
    (robust : Robust programs workingDir harness suites journal kept)
    (operations : List Operation) :
    Action.Carries (world programs workingDir harness suites) kept
      (timeGroups journal (harness.time journal) suites operations) := by
  refine (asksOnly_timeGroups journal harness suites operations).carries
    fun request asked => ?_
  cases asked with
  | note noted =>
      exact Action.carries_of_keeps fun seen =>
        keeps_noted (robust.log seen) noted
  | makeDirs isDir =>
      exact Action.carries_of_keeps fun seen =>
        keeps_of_change (fun _ answer _ _ given => ⟨answer, given⟩)
          fun tree after => robust.dirs seen _ tree after
  | attend isAsked collected =>
      intro tree answer moments last runs seen holds
      have answered := Action.world_of_runs runs
      cases answer with
      | error cause =>
          obtain ⟨rfl, rfl⟩ := answered
          simpa using holds
      | ok exit =>
          exact robust.times _ _ collected seen tree moments last
            (answered _ _ collected rfl) holds

section Parts

variable {μ : Type} {world : World μ}
  {time : Group -> Action (Except HarnessFailure Outcome)}
  {operation : Operation} {rest : List Operation} {tree last : FileTree}
  {moments : List μ} {result : Except HarnessFailure Summary}

/-- Where no suite supports an operation, timing goes on with the next one. -/
theorem runs_timeGroups_skip
    (unsupported : Group.collect? suites operation = none)
    (runs : (timeGroups journal time suites (operation :: rest)).Runs world tree
      result moments last) :
    ∃ value, (timeGroups journal time suites rest).Runs world tree value moments
        last ∧
      result = value.map fun summary =>
        { summary with skipped := operation :: summary.skipped } := by
  rw [timeGroups] at runs
  simp only [unsupported] at runs
  obtain ⟨value, early, _, _, runsRest, returned, rfl⟩ := Action.runs_bind runs
  rcases value with failure | summary <;> cases returned
  · exact ⟨_, by simpa using runsRest, rfl⟩
  · exact ⟨_, by simpa using runsRest, rfl⟩

/-- Where some suite supports an operation, its group is announced and timed,
and unless that fails its outcome is told and timing goes on with the next
one. -/
theorem runs_timeGroups_submit
    {group : Group}
    (collected : Group.collect? suites operation = some group)
    (runs : (timeGroups journal time suites (operation :: rest)).Runs world tree
      result moments last) :
    ∃ given early middle shown next late,
      (journal.note (.banner operation.name)).Runs world tree () early middle ∧
      (time group).Runs world middle given shown next ∧
      moments = early ++ (shown ++ late) ∧
      match given with
      | .error failure => result = .error failure ∧ late = [] ∧ last = next
      | .ok outcome => ∃ value told after others,
        (reportOutcome journal operation outcome).Runs world next () told
          after ∧
        (timeGroups journal time suites rest).Runs world after value others
          last ∧
        late = told ++ others ∧
        result = value.map fun summary =>
          { summary with outcomes := outcome :: summary.outcomes } := by
  rw [timeGroups] at runs
  simp only [collected] at runs
  obtain ⟨_, early, middle, _, runsBanner, runsTime, rfl⟩ :=
    Action.runs_bind runs
  obtain ⟨given, shown, next, late, runsGroup, runsOn, rfl⟩ :=
    Action.runs_bind runsTime
  refine ⟨given, early, middle, shown, next, late, runsBanner, runsGroup, rfl,
    ?_⟩
  rcases given with failure | outcome
  · cases runsOn
    exact ⟨rfl, rfl, rfl⟩
  · obtain ⟨_, told, after, _, runsReport, runsOthers, rfl⟩ :=
      Action.runs_bind runsOn
    obtain ⟨value, others, _, _, runsRest, returned, rfl⟩ :=
      Action.runs_bind runsOthers
    refine ⟨value, told, after, others, runsReport, ?_⟩
    rcases value with failure | summary <;> cases returned
    · exact ⟨runsRest, by simp, rfl⟩
    · exact ⟨runsRest, by simp, rfl⟩

end Parts

/-! ## The session as a whole -/

/-- A part of a task carries on what its action does. -/
theorem carries_attempt
    {μ : Type}
    {world : World μ}
    {kept : List μ -> FileTree -> Prop}
    {action : Action (Except ε α)}
    (carries : Action.Carries world kept action)
    (cause : ε -> Failure) :
    Action.Carries world kept (Attempt.lift cause action).run := by
  rw [Attempt.lift, ExceptT.run_mk]
  refine carries.bind ?_
  rintro (failure | value) <;> exact Action.carries_pure kept _

/-- A part of a task runs as its action does. -/
theorem runs_attempt
    {μ : Type}
    {world : World μ}
    {tree last : FileTree}
    {moments : List μ}
    {cause : ε -> Failure}
    {action : Action (Except ε α)}
    {result : Except Failure α}
    (runs : (Attempt.lift cause action).run.Runs world tree result moments
      last) :
    ∃ given, result = given.mapError cause ∧
      action.Runs world tree given moments last := by
  rw [Attempt.lift, ExceptT.run_mk] at runs
  obtain ⟨given, early, middle, late, first, second, rfl⟩ :=
    Action.runs_bind runs
  rcases given with failure | value <;> cases second
  · exact ⟨_, rfl, by simpa using first⟩
  · exact ⟨_, rfl, by simpa using first⟩

/-- The timing of a session carries on what is robust. -/
theorem carries_timing
    (robust : Robust programs workingDir harness suites journal kept)
    (task : RunTask) :
    Action.Carries (world programs workingDir harness suites) kept
      (timing task journal harness suites).run := by
  have carriesPrint : ∀ text, Action.Carries
      (world programs workingDir harness suites) kept (Action.print text) :=
    fun text => Action.carries_of_keeps fun seen =>
      keeps_of_same fun _ _ _ _ same => same
  have carriesReport : ∀ summary, Action.Carries
      (world programs workingDir harness suites) kept
      (RunTask.reportSummary journal summary) :=
    fun summary => Action.carries_of_keeps fun seen =>
      keeps_reportSummary (robust.log seen) summary
  refine (carriesPrint _).run_lift.run_bind fun _ => ?_
  refine (carries_attempt (carries_timeGroups robust _) _).run_bind
    fun summary => ?_
  exact (carriesReport summary).run_lift.run_bind fun _ =>
    Action.carries_pure kept _

/-- A session shows no moments unless all of its suites were seeded, and from
then on it carries on what is robust. -/
theorem carried_of_session
    (task : RunTask)
    (config : Config)
    (verbosity : Nat)
    (fixture : Fixture)
    (tools : List (Tool × List Path))
    (hyperfine : Path)
    {sessionDir : Path}
    (suites_eq : suites = RunTask.planSuites (config.projectOptions none none)
      sessionDir tools)
    (harness_eq : harness = ⟨hyperfine, task.harnessOptions config verbosity⟩)
    (housed : Housed sessionDir suites)
    (reliable : Reliable programs workingDir suites)
    (isLog : NamedLog journal)
    (robust : Robust programs workingDir harness suites journal kept)
    (starts : ∀ tree, Locked workingDir suites tree -> kept [] tree)
    {tree last : FileTree}
    {result : Except Failure Summary}
    {moments : List Moment}
    (runs : (task.session journal config verbosity fixture tools hyperfine
      sessionDir).run.Runs (world programs workingDir harness suites) tree
        result moments last) :
    moments = [] ∨ ∃ left, kept moments left := by
  rw [session_eq, ← suites_eq, ← harness_eq] at runs
  obtain ⟨seeded, early, middle, late, runsSeeding, rfl, runsTiming⟩ :=
    Action.runs_run_bind runs
  obtain ⟨rfl, lockedIfOk⟩ := runsSeeding.silent
    (ensures_seeding fixture housed reliable isLog tree)
  cases seeded with
  | error failure =>
      obtain ⟨_, rfl, _⟩ := runsTiming
      exact .inl rfl
  | ok done =>
      exact .inr ⟨last, carries_timing robust task _ _ _ _ runsTiming []
        (starts middle (lockedIfOk rfl))⟩

end Session
end LockBench
