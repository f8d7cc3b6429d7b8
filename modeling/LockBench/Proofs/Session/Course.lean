import LockBench.Proofs.Session.Readiness
import LockBench.Proofs.Session.Requests

/-!
# The course of a session

A session puts its fixture in place, seeds its suites one after another and
times its operations.  Seeding a suite gives it its lockfile; whatever else is
written meanwhile leaves the lockfiles of the suites before it.
-/

namespace LockBench
namespace Session

variable {programs : Programs} {workingDir : Location} {sessionDir : Path}
  {harness : Harness} {suites seeded : List Suite} {suite : Suite}
  {good : Moment -> Prop} {journal : Journal} {tree after : FileTree}

/-! ## Lockfiles stay -/

/-- Fewer suites have their lockfiles, too. -/
theorem Locked.of_subset
    (locked : Locked workingDir suites tree)
    (subset : ∀ suite ∈ seeded, suite ∈ suites) :
    Locked workingDir seeded tree :=
  fun suite member => locked suite (subset suite member)

/-- Lockfiles stay where directories are made. -/
theorem Locked.of_grows
    (locked : Locked workingDir seeded tree)
    (grows : tree.Grows after) : Locked workingDir seeded after :=
  fun suite member =>
    ⟨(locked suite member).1, (locked suite member).2.of_grows grows⟩

/-- Lockfiles stay where a file of another name is written. -/
theorem Locked.of_putsFile
    (locked : Locked workingDir seeded tree)
    (housed : Housed sessionDir suites)
    (ofSession : ∀ suite ∈ seeded, suite ∈ suites)
    {dir : Path}
    {name : String}
    (isName : Path.IsName name)
    (otherName : ∀ tool : Tool, tool.lockfileName ≠ name)
    (puts : FileTree.PutsFile workingDir (dir.join name) tree after) :
    Locked workingDir seeded after := by
  intro suite member
  have isHoused := ofSession suite member
  refine ⟨(locked suite member).1, (locked suite member).2.of_putsFile
    (housed.writable isHoused).absolute_lockfileRemoval isName ?_ puts⟩
  rw [(housed.within suite isHoused).location_lockfile]
  simpa using otherName suite.tool

/-- A log file has the name of one, wherever it is. -/
def NamedLog (journal : Journal) : Prop :=
  ∀ file ∈ journal.file, ∃ dir : Path, file = dir.join Journal.fileName

/-- A property of files that writing to the log keeps. -/
def SparedByLog
    (workingDir : Location)
    (journal : Journal)
    (kept : FileTree -> Prop) : Prop :=
  ∀ file ∈ journal.file, ∀ content tree after,
    tree.append workingDir file content = .ok after -> kept tree -> kept after

/-- The log is no lockfile. -/
theorem sparedByLog_locked
    (housed : Housed sessionDir suites)
    (ofSession : ∀ suite ∈ seeded, suite ∈ suites)
    (isLog : NamedLog journal) :
    SparedByLog workingDir journal (Locked workingDir seeded) := by
  intro file isFile content tree after appended locked
  obtain ⟨dir, rfl⟩ := isLog file isFile
  have otherName : ∀ tool : Tool, tool.lockfileName ≠ Journal.fileName := by
    intro tool
    cases tool <;> decide
  exact locked.of_putsFile housed ofSession (by decide) otherName
    (FileTree.putsFile_of_append appended)

/-! ## Notes -/

section Notes

variable {kept : FileTree -> Prop}

/-- What leaves the files and shows no moment keeps everything. -/
theorem keeps_of_same
    {request : Request}
    (same : ∀ tree answer moments last,
      world programs workingDir harness suites request tree answer moments
        last -> moments = [] ∧ last = tree) :
    Action.Keeps (world programs workingDir harness suites) good kept
      (Action.request request) := by
  intro tree holds answer moments last answered
  obtain ⟨rfl, rfl⟩ := same tree answer moments last answered
  exact ⟨by simp, holds⟩

/-- A request that changes files keeps what its change keeps. -/
theorem keeps_of_change
    {request : Request}
    {change : FileTree -> Except OsError FileTree}
    (changes : ∀ tree answer moments last,
      world programs workingDir harness suites request tree answer moments
        last -> ∃ done, Takes (change tree) tree done last ∧ moments = [])
    (spared : ∀ tree last, change tree = .ok last -> kept tree -> kept last) :
    Action.Keeps (world programs workingDir harness suites) good kept
      (Action.request request) := by
  intro tree holds answer moments last answered
  obtain ⟨done, takes, rfl⟩ := changes tree answer moments last answered
  refine ⟨by simp, ?_⟩
  rcases takes.eq_or_ok with rfl | changed
  · exact holds
  · exact spared tree last changed holds

/-- What notes ask for keeps what the log spares. -/
theorem keeps_noted
    (spared : SparedByLog workingDir journal kept)
    {request : Request}
    (noted : journal.Asks request) :
    Action.Keeps (world programs workingDir harness suites) good kept
      (Action.request request) := by
  cases noted with
  | clock => exact keeps_of_same fun _ _ _ _ same => same
  | append isFile content =>
      exact keeps_of_change (fun _ answer _ _ given => ⟨answer, given⟩)
        fun tree last => spared _ isFile content tree last
  | print text => exact keeps_of_same fun _ _ _ _ same => same
  | printError text => exact keeps_of_same fun _ _ _ _ same => same

/-- Notes keep what the log spares. -/
theorem keeps_note
    (spared : SparedByLog workingDir journal kept)
    (entry : Entry) :
    Action.Keeps (world programs workingDir harness suites) good kept
      (journal.note entry) :=
  (asksOnly_note journal entry).keeps fun _ => keeps_noted spared

end Notes

/-! ## Seeding -/

/-- Making directories keeps lockfiles. -/
theorem keeps_makeDirs (path : Path) :
    Action.Keeps (world programs workingDir harness suites) good
      (Locked workingDir seeded) (Action.makeDirs path) :=
  keeps_of_change (fun _ answer _ _ given => ⟨answer, given⟩)
    fun _ _ made locked => locked.of_grows (FileTree.grows_of_makeDirs made)

/-- Writing a file that has the name of no lockfile keeps lockfiles. -/
theorem keeps_write
    (housed : Housed sessionDir suites)
    (ofSession : ∀ suite ∈ seeded, suite ∈ suites)
    (dir : Path)
    {name : String}
    (isName : Path.IsName name)
    (otherName : ∀ tool : Tool, tool.lockfileName ≠ name)
    (content : ByteArray) :
    Action.Keeps (world programs workingDir harness suites) good
      (Locked workingDir seeded)
      (Action.request (.write (dir.join name) content)) :=
  keeps_of_change (fun _ answer _ _ given => ⟨answer, given⟩)
    fun _ _ written locked => locked.of_putsFile housed ofSession isName
      otherName (FileTree.putsFile_of_write written)

/-- Copying to a file that has the name of no lockfile keeps lockfiles. -/
theorem keeps_copy
    (housed : Housed sessionDir suites)
    (ofSession : ∀ suite ∈ seeded, suite ∈ suites)
    (source dir : Path)
    {name : String}
    (isName : Path.IsName name)
    (otherName : ∀ tool : Tool, tool.lockfileName ≠ name) :
    Action.Keeps (world programs workingDir harness suites) good
      (Locked workingDir seeded)
      (Action.request (.copy source (dir.join name))) := by
  refine keeps_of_change (fun _ answer _ _ given => ⟨answer, given⟩) ?_
  intro tree last copied locked
  obtain ⟨emptied, empties, fills⟩ := FileTree.putsFile_of_copy copied
  exact (locked.of_putsFile housed ofSession isName otherName
    empties).of_putsFile housed ofSession isName otherName fills

/-- Putting a manifest in place keeps lockfiles. -/
theorem keeps_seedManifest
    (housed : Housed sessionDir suites)
    (ofSession : ∀ suite ∈ seeded, suite ∈ suites)
    (suite : Suite)
    (source : Path) :
    Action.Keeps (world programs workingDir harness suites) good
      (Locked workingDir seeded) (suite.seedManifest source) := by
  have otherProject : ∀ tool : Tool, tool.lockfileName ≠ Project.fileName := by
    intro tool
    cases tool <;> decide
  have otherManifest : ∀ tool : Tool,
      tool.lockfileName ≠ Suite.manifestName := by
    intro tool
    cases tool <;> decide
  refine (asksOnly_seedManifest suite source).keeps fun request asked => ?_
  cases asked with
  | read => exact keeps_of_same fun _ _ _ _ same => same.2
  | write content =>
      exact keeps_write housed ofSession _ (by decide) otherProject content
  | copy => exact keeps_copy housed ofSession _ _ (by decide) otherManifest

/-- A first lock that succeeds gives a suite its lockfile and leaves those of
the suites before it. -/
theorem locked_cons_of_programs
    (housed : Housed sessionDir suites)
    (reliable : Reliable programs workingDir suites)
    (ofSession : ∀ suite ∈ seeded, suite ∈ suites)
    (member : suite ∈ suites)
    (locked : Locked workingDir seeded tree)
    (locks : programs (suite.launch .lock) tree after) :
    Locked workingDir (suite :: seeded) after := by
  have ownLock : Machine.holdsNul (suite.launch .lock) = false ∧
      after.HoldsFile workingDir suite.layout.lockfile :=
    ⟨reliable.starts _ _ _ locks,
      reliable.locks suite member .lock (by decide) _ _ locks⟩
  refine List.forall_mem_cons.mpr ⟨ownLock, fun other otherSeeded => ?_⟩
  by_cases isOwn : other = suite
  · obtain rfl := isOwn
    exact ownLock
  · have otherMember := ofSession other otherSeeded
    refine ⟨(locked other otherSeeded).1, (locked other otherSeeded).2.congr
      (housed.writable otherMember).absolute_lockfileRemoval ?_⟩
    intro location isNeeded
    exact reliable.stays suite member .lock _ _ locks location
      (housed.not_owns member otherMember isOwn
        (housed.entry_lockfile otherMember) isNeeded)

/-- Whatever the files are, a note before a failure ends in that failure. -/
theorem ensures_note_throw
    (journal : Journal)
    (entry : Entry)
    (failure : SeedFailure)
    {required : Except SeedFailure α -> FileTree -> Prop}
    (allowed : ∀ last, required (.error failure) last)
    (tree : FileTree) :
    (do journal.note entry; throw failure :
      ExceptT SeedFailure Action α).run.Ensures
        (world programs workingDir harness suites) good required tree := by
  rw [Action.ensures_run_bind, Action.ensures_run_lift]
  have spared : SparedByLog workingDir journal fun _ => True :=
    fun _ _ _ _ _ _ _ => trivial
  exact (keeps_note spared entry tree trivial).mono
    fun _ last _ => allowed last

/-- The end of a first lock is judged by its exit. -/
theorem ensures_judgeLock
    {kept : FileTree -> Prop}
    (spared : SparedByLog workingDir journal kept)
    (suite : Suite)
    (captured : Captured)
    (holds : captured.exit.succeeded = true -> kept tree) :
    (suite.judgeLock journal captured).run.Ensures
      (world programs workingDir harness suites) good
      (fun result last => result = .ok () -> kept last) tree := by
  rw [Suite.judgeLock, Action.ensures_run_bind, Action.ensures_run_lift]
  have sparedImplied : SparedByLog workingDir journal
      fun tree => captured.exit.succeeded = true -> kept tree :=
    fun file isFile content tree after appended implied succeeded =>
      spared file isFile content tree after appended (implied succeeded)
  apply (keeps_note sparedImplied _ tree holds).mono
  intro _ noted holdsNoted
  dsimp only
  split
  · rename_i succeeded
    rw [Action.ensures_run_lift]
    exact (keeps_note spared _ noted (holdsNoted succeeded)).mono
      fun _ _ holdsLast _ => holdsLast
  · exact ensures_note_throw journal _ _ (by simp) noted

/-- The first lock of a suite, where it succeeds, gives it its lockfile. -/
theorem ensures_initialLock
    (housed : Housed sessionDir suites)
    (reliable : Reliable programs workingDir suites)
    (isLog : NamedLog journal)
    (ofSession : ∀ suite ∈ seeded, suite ∈ suites)
    (member : suite ∈ suites)
    (locked : Locked workingDir seeded tree) :
    (suite.initialLock journal).run.Ensures
      (world programs workingDir harness suites) good
      (fun result last => result = .ok () ->
        Locked workingDir (suite :: seeded) last) tree := by
  rw [Suite.initialLock, Suite.launch?_seedCommand]
  rw [Action.ensures_run_bind, Action.ensures_run_lift]
  refine (keeps_note (sparedByLog_locked housed ofSession isLog) _ tree
    locked).mono ?_
  intro _ noted lockedNoted
  dsimp only
  rw [Action.ensures_run_bind, Action.ensures_run_lift]
  rintro (cause | captured) moments last ⟨rfl, answered⟩
  · exact ⟨by simp, ensures_note_throw journal _ _ (by simp) last⟩
  · have ofSessionCons : ∀ other ∈ suite :: seeded, other ∈ suites :=
      List.forall_mem_cons.mpr ⟨member, ofSession⟩
    refine ⟨by simp, ensures_judgeLock
      (sparedByLog_locked housed ofSessionCons isLog) suite captured ?_⟩
    intro succeeded
    exact locked_cons_of_programs housed reliable ofSession member lockedNoted
      (answered succeeded)

theorem ensures_makeDir
    (path : Path)
    (locked : Locked workingDir seeded tree) :
    (Suite.makeDir path).run.Ensures (world programs workingDir harness suites)
      good (fun _ last => Locked workingDir seeded last) tree := by
  rw [Suite.makeDir, Action.ensures_run_bind, Action.ensures_run_lift]
  apply (keeps_makeDirs path tree locked).mono
  rintro (cause | done) last lockedLast <;> exact lockedLast

/-- Seeding a suite, where it succeeds, gives it its lockfile. -/
theorem ensures_seed
    (housed : Housed sessionDir suites)
    (reliable : Reliable programs workingDir suites)
    (isLog : NamedLog journal)
    (ofSession : ∀ suite ∈ seeded, suite ∈ suites)
    (member : suite ∈ suites)
    (source : Path)
    (locked : Locked workingDir seeded tree) :
    (suite.seed journal source).run.Ensures
      (world programs workingDir harness suites) good
      (fun result last => result = .ok () ->
        Locked workingDir (suite :: seeded) last) tree := by
  rw [Suite.seed, Action.ensures_run_bind]
  apply (ensures_makeDir _ locked).mono
  rintro (failure | made) first lockedFirst
  · simp
  rw [Action.ensures_run_bind]
  apply (ensures_makeDir _ lockedFirst).mono
  rintro (failure | made) second lockedSecond
  · simp
  dsimp only
  rw [Action.ensures_run_bind, Action.ensures_run_lift]
  refine (keeps_seedManifest housed ofSession suite source second
    lockedSecond).mono ?_
  rintro (failure | target) third lockedThird
  · rintro ⟨⟩
  · exact ensures_initialLock housed reliable isLog ofSession member lockedThird

/-- A part of a task ensures what its action does. -/
theorem ensures_attempt
    {μ : Type}
    {world : World μ}
    {good : μ -> Prop}
    (cause : ε -> Failure)
    (action : Action (Except ε α))
    (required : Except Failure α -> FileTree -> Prop)
    (tree : FileTree) :
    (Attempt.lift cause action).run.Ensures world good required tree ↔
      action.Ensures world good
        (fun result => required (result.mapError cause)) tree := by
  rw [Attempt.lift, ExceptT.run_mk, Action.ensures_bind]
  constructor <;> intro ensures <;> refine ensures.mono ?_
  · rintro (failure | value) last holds <;> exact holds
  · rintro (failure | value) last holds <;> exact holds

/-- Seeding suites one after another, where it succeeds, gives all of them
their lockfiles. -/
theorem ensures_seedAll
    (housed : Housed sessionDir suites)
    (reliable : Reliable programs workingDir suites)
    (isLog : NamedLog journal)
    (source : Path)
    {rest : List Suite}
    (ofSession : ∀ suite ∈ rest ++ seeded, suite ∈ suites)
    (locked : Locked workingDir seeded tree) :
    (RunTask.seedAll journal source rest).run.Ensures
      (world programs workingDir harness suites) good
      (fun result last => result = .ok () ->
        Locked workingDir (rest ++ seeded) last) tree := by
  induction rest generalizing seeded tree with
  | nil => exact fun _ => locked
  | cons suite rest inductionHypothesis =>
      rw [List.cons_append, List.forall_mem_cons] at ofSession
      obtain ⟨member, ofSessionRest⟩ := ofSession
      rw [List.forall_mem_append] at ofSessionRest
      rw [RunTask.seedAll, Action.ensures_run_bind, ensures_attempt]
      refine (ensures_seed housed reliable isLog ofSessionRest.2 member source
        locked).mono ?_
      rintro (failure | done) middle lockedIfOk
      · rintro ⟨⟩
      · have ofSessionNext : ∀ other ∈ rest ++ suite :: seeded,
            other ∈ suites := by
          rw [List.forall_mem_append, List.forall_mem_cons]
          exact ⟨ofSessionRest.1, member, ofSessionRest.2⟩
        apply (inductionHypothesis ofSessionNext (lockedIfOk rfl)).mono
        intro result last lockedLast isOk
        apply (lockedLast isOk).of_subset
        intro other otherMember
        simp only [List.mem_append, List.mem_cons] at otherMember ⊢
        tauto

/-! ## Timing -/

/-- Timings have the name of no lockfile. -/
theorem isName_exportName (operation : Operation) :
    Path.IsName (operation.name ++ ".json") ∧
      ∀ tool : Tool, tool.lockfileName ≠ operation.name ++ ".json" := by
  constructor
  · cases operation <;> decide
  · intro tool
    cases tool <;> cases operation <;> decide

/-- A group is timed from one state in which all suites have their lockfiles to
another one, and all of its runs start as promised. -/
theorem startsReady_of_times
    (housed : Housed sessionDir suites)
    (reliable : Reliable programs workingDir suites)
    {operation : Operation}
    {group : Group}
    (collected : Group.collect? suites operation = some group)
    {moments : List Moment}
    (locked : Locked workingDir suites tree)
    (times : Times programs workingDir harness group tree moments after) :
    (∀ moment ∈ moments, StartsReady workingDir suites moment) ∧
      Locked workingDir suites after := by
  obtain ⟨count, middle, _, works, written⟩ := times
  have operation_eq : group.operation = operation := by
    obtain ⟨rfl, _⟩ := (Group.collect?_eq_some_iff _ _ _).mp collected
    rfl
  rw [operation_eq] at works
  obtain ⟨ready, lockedMiddle⟩ := startsReady_of_works housed reliable collected
    (fun run => mem_of_mem_runsOf) locked works
  refine ⟨ready, ?_⟩
  rcases written with rfl | ⟨path, content, export_eq, written⟩
  · exact lockedMiddle
  · rw [Harness.exportPath?, Option.map_eq_some_iff] at export_eq
    obtain ⟨dir, _, rfl⟩ := export_eq
    obtain ⟨isName, otherName⟩ := isName_exportName group.operation
    exact lockedMiddle.of_putsFile housed (fun _ => id) isName otherName
      (FileTree.putsFile_of_write written)

/-- Timing operations one after another keeps the lockfiles of all suites. -/
theorem keeps_timeGroups
    (housed : Housed sessionDir suites)
    (reliable : Reliable programs workingDir suites)
    (isLog : NamedLog journal)
    (operations : List Operation) :
    Action.Keeps (world programs workingDir harness suites)
      (StartsReady workingDir suites) (Locked workingDir suites)
      (timeGroups journal (harness.time journal) suites operations) := by
  have spared : SparedByLog workingDir journal (Locked workingDir suites) :=
    sparedByLog_locked housed (fun _ => id) isLog
  refine (asksOnly_timeGroups journal harness suites operations).keeps
    fun request asked => ?_
  cases asked with
  | note noted => exact keeps_noted spared noted
  | makeDirs isDir => exact keeps_makeDirs _
  | attend isAsked collected =>
      rintro tree locked (cause | exit) moments last answered
      · obtain ⟨rfl, rfl⟩ := answered
        exact ⟨by simp, locked⟩
      · exact startsReady_of_times housed reliable collected locked
          (answered _ _ collected rfl)

/-! ## The session as a whole -/

/-- What has no suite to keep a lockfile of is always so. -/
theorem locked_nil
    (workingDir : Location)
    (tree : FileTree) : Locked workingDir [] tree := by
  simp [Locked]

/-- Putting a fixture in place shows no moments. -/
theorem keeps_materialize
    (housed : Housed sessionDir suites)
    (fixture : Fixture) :
    Action.Keeps (world programs workingDir harness suites) good
      (Locked workingDir []) (fixture.materialize sessionDir) := by
  have otherName : ∀ tool : Tool,
      tool.lockfileName ≠ Fixture.pipfileName := by
    intro tool
    cases tool <;> decide
  refine (asksOnly_materialize sessionDir fixture).keeps fun request asked => ?_
  cases asked with
  | makeDirs isBundled => exact keeps_makeDirs _
  | write isBundled content =>
      exact keeps_write housed (by simp) _ (by decide) otherName content

/-- Reporting the end of a session shows no moments. -/
theorem keeps_reportSummary
    {kept : FileTree -> Prop}
    (spared : SparedByLog workingDir journal kept)
    (summary : Summary) :
    Action.Keeps (world programs workingDir harness suites) good kept
      (RunTask.reportSummary journal summary) := by
  refine (RunTask.asksOnly_reportSummary journal summary).keeps
    fun request asked => ?_
  cases asked with
  | note noted => exact keeps_noted spared noted
  | kind path => exact keeps_of_same fun _ _ _ _ same => same

/-- The part of a session that comes before its timing. -/
def seeding
    (journal : Journal)
    (fixture : Fixture)
    (sessionDir : Path)
    (suites : List Suite) : Attempt Unit := do
  journal.note (.debug ("Session directory: " ++ sessionDir.text))
  let pipfile ← Attempt.lift Failure.ofFixture (fixture.materialize sessionDir)
  RunTask.seedAll journal pipfile suites

/-- The part of a session that times its operations. -/
def timing
    (task : RunTask)
    (journal : Journal)
    (harness : Harness)
    (suites : List Suite) : Attempt Summary := do
  Action.print (RunTask.headerText journal.colored task.fixture suites
    task.chosenOperations)
  let summary ← Attempt.lift .harness
    (timeGroups journal (harness.time journal) suites task.chosenOperations)
  RunTask.reportSummary journal summary
  return summary

/-- A session seeds its suites and then times its operations. -/
theorem session_eq
    (task : RunTask)
    (journal : Journal)
    (config : Config)
    (verbosity : Nat)
    (fixture : Fixture)
    (tools : List (Tool × List Path))
    (hyperfine sessionDir : Path) :
    task.session journal config verbosity fixture tools hyperfine sessionDir =
      let suites := RunTask.planSuites (config.projectOptions none none)
        sessionDir tools
      seeding journal fixture sessionDir suites >>= fun _ =>
        timing task journal ⟨hyperfine, task.harnessOptions config verbosity⟩
          suites := by
  simp only [RunTask.session, seeding, timing, bind_assoc]

/-- Seeding shows no moments, and it gives all suites their lockfiles where it
succeeds. -/
theorem ensures_seeding
    (fixture : Fixture)
    (housed : Housed sessionDir suites)
    (reliable : Reliable programs workingDir suites)
    (isLog : NamedLog journal)
    (tree : FileTree) :
    (seeding journal fixture sessionDir suites).run.Ensures
      (world programs workingDir harness suites) good
      (fun result last => result = .ok () -> Locked workingDir suites last)
      tree := by
  have spared : SparedByLog workingDir journal (Locked workingDir []) :=
    sparedByLog_locked housed (by simp) isLog
  rw [seeding, Action.ensures_run_bind, Action.ensures_run_lift]
  refine (keeps_note spared _ tree (locked_nil workingDir tree)).mono ?_
  intro _ noted lockedNoted
  dsimp only
  rw [Action.ensures_run_bind, ensures_attempt]
  apply (keeps_materialize housed fixture noted lockedNoted).mono
  rintro (failure | pipfile) placed lockedPlaced
  · rintro ⟨⟩
  · have ofSession : ∀ suite ∈ suites ++ [], suite ∈ suites := by simp
    refine (ensures_seedAll housed reliable isLog pipfile ofSession
      lockedPlaced).mono ?_
    intro result seeded lockedIfOk isOk
    simpa using lockedIfOk isOk

/-- A session whose suites are housed starts all its runs as promised. -/
theorem ensures_session
    (task : RunTask)
    (config : Config)
    (verbosity : Nat)
    (fixture : Fixture)
    (tools : List (Tool × List Path))
    (hyperfine : Path)
    (suites_eq : suites = RunTask.planSuites (config.projectOptions none none)
      sessionDir tools)
    (harness_eq : harness = ⟨hyperfine, task.harnessOptions config verbosity⟩)
    (housed : Housed sessionDir suites)
    (reliable : Reliable programs workingDir suites)
    (isLog : NamedLog journal)
    (tree : FileTree) :
    (task.session journal config verbosity fixture tools hyperfine
        sessionDir).run.Ensures (world programs workingDir harness suites)
      (StartsReady workingDir suites) (fun _ _ => True) tree := by
  have spared : SparedByLog workingDir journal (Locked workingDir suites) :=
    sparedByLog_locked housed (fun _ => id) isLog
  rw [session_eq, ← suites_eq, ← harness_eq, Action.ensures_run_bind]
  apply (ensures_seeding fixture housed reliable isLog tree).mono
  rintro (failure | done) seeded lockedIfOk
  · trivial
  dsimp only
  rw [timing, Action.ensures_run_bind, Action.ensures_run_lift]
  have keepsPrint : ∀ text, Action.Keeps
      (world programs workingDir harness suites) (StartsReady workingDir suites)
      (Locked workingDir suites) (Action.print text) :=
    fun _ => keeps_of_same fun _ _ _ _ same => same
  apply (keepsPrint _ seeded (lockedIfOk rfl)).mono
  intro _ printed lockedPrinted
  dsimp only
  rw [Action.ensures_run_bind, ensures_attempt]
  refine (keeps_timeGroups housed reliable isLog task.chosenOperations
    printed lockedPrinted).mono ?_
  rintro (failure | summary) timed lockedTimed
  · trivial
  dsimp only [Except.mapError]
  rw [Action.ensures_run_bind, Action.ensures_run_lift]
  exact (keeps_reportSummary spared summary timed lockedTimed).mono
    fun _ _ _ => trivial

end Session
end LockBench
