import LockBench.CommandLine.Commands
import LockBench.Proofs.Session.Conduct
import LockBench.Proofs.Session.Course
import LockBench.Proofs.Session.Utterances

/-!
# What a quiet run shows

All that a run can say is listed here.  Where only warnings and errors are
wanted, the console shows the warnings and errors of the list, but also its
successes, the heading of the session and the banner of every group, which are
shown at every verbosity.  All else is in the log only.
-/

namespace LockBench

open LockBench.Action

/-! ## All that is said -/

namespace RunTask

/-- How the timings of an operation are announced. -/
def announcement
    (operation : Operation)
    (path : Path) : Entry :=
  .info (operation.name ++ " results: " ++ path.text)

/-- What a run says before its report. -/
inductive Remark (task : RunTask) : Utterance -> Prop
  /-- A tool has no binary. -/
  | missing (tool : Tool) :
      Remark task (.note (.warn (tool.name ++ " not found on PATH, skipping")))
  /-- The session has its directory. -/
  | opened (dir : Path) :
      Remark task (.note (.debug ("Session directory: " ++ dir.text)))
  /-- The seeding of a suite begins. -/
  | seeding (suite : Suite) :
      Remark task
        (.note (.progress ("Setting up " ++ suite.displayName ++ "...")))
  /-- The first lock of a suite cannot be started. -/
  | unstarted (suite : Suite) :
      Remark task
        (.note (.failure ("Failed to run " ++ suite.seedCommand.name)))
  /-- The first lock of a suite has ended. -/
  | locked
      (suite : Suite)
      (code : Option Int)
      (stdout stderr : String) :
      Remark task
        (.note (.captured suite.seedCommand.name code stdout stderr))
  /-- A suite is seeded. -/
  | seeded (suite : Suite) :
      Remark task (.note (.success ("Set up " ++ suite.displayName)))
  /-- The first lock of a suite has failed. -/
  | unseeded (suite : Suite) :
      Remark task
        (.note (.failure ("Setting up " ++ suite.displayName ++ " failed")))
  /-- What the session is about to do. -/
  | heading (suites : List Suite) :
      Remark task (.heading task.fixture suites task.chosenOperations)
  /-- The group of an operation comes next. -/
  | banner (operation : Operation) :
      Remark task (.note (.banner operation.name))
  /-- The timing program is about to run. -/
  | timing
      (operation : Operation)
      (count : Nat) :
      Remark task (.note (.step ("hyperfine " ++ operation.name ++ " with " ++
        toString count ++ " command(s)")))
  /-- The timing program has reported a failure. -/
  | failed (outcome : Outcome) :
      Remark task (.note (.warn (Session.failureText outcome)))

/-- What the report of a session says. -/
inductive ReportRemark : Utterance -> Prop
  /-- No suite supports an operation. -/
  | skipped (operation : Operation) :
      ReportRemark (.note (.info ("Skipped " ++ operation.name ++
        ": no selected tool supports it")))
  /-- The timings of an operation are somewhere. -/
  | exported
      (operation : Operation)
      (path : Path) : ReportRemark (.note (announcement operation path))
  /-- The session is over. -/
  | closing (summary : Summary) : ReportRemark (.note (closing summary))

section Speaking

variable {task : RunTask} {journal : Journal}

/-! ### Looking for things -/

theorem speaks_findBinaries
    (config : Config)
    (tool : Tool) :
    (task.findBinaries journal config tool).Speaks journal task.Remark := by
  have searches :
      (Discovery.findBinary? tool.name).AsksOnly Request.IsSilent :=
    Discovery.asksOnly_findBinary? (fun _ => trivial) trivial (fun _ => trivial)
      trivial
  rw [findBinaries]
  split
  · refine searches.speaks.bind ?_
    rintro (_ | path)
    · exact (speaks_note (.missing tool)).bind fun _ => speaks_pure _
    · exact speaks_pure _
  · exact speaks_pure _
  · exact speaks_pure _

theorem speaks_findAll
    (config : Config)
    (tools : List Tool) :
    (task.findAll journal config tools).Speaks journal task.Remark := by
  induction tools with
  | nil => exact speaks_pure _
  | cons tool rest inductionHypothesis =>
      exact (speaks_findBinaries config tool).bind fun _ =>
        inductionHypothesis.bind fun _ => speaks_pure _

theorem speaks_seek (config : Config) :
    (task.seek journal config).run.Speaks journal task.Remark := by
  have findsFixture :
      (task.findFixture config).run.Speaks journal task.Remark :=
    (asksOnly_findFixture (fun _ => trivial) (fun _ => trivial)
      (fun _ => trivial) task config).speaks
  have findsHyperfine : ∀ chosen,
      (Discovery.findHyperfine chosen).Speaks journal task.Remark :=
    fun chosen => (Discovery.asksOnly_findHyperfine (fun _ => trivial) trivial
      (fun _ => trivial) chosen).speaks
  exact .run_bind findsFixture fun fixture =>
    .run_bind (.run_lift (speaks_findAll config _)) fun tools =>
    .run_bind (speaks_attempt (findsHyperfine _)) fun hyperfine =>
    speaks_pure _

theorem speaks_temporaryDir : temporaryDir.Speaks journal task.Remark :=
  (asksOnly_temporaryDir (fun _ => trivial) trivial).speaks

/-! ### Seeding -/

theorem speaks_seed
    (suite : Suite)
    (source : Path) :
    (suite.seed journal source).run.Speaks journal task.Remark := by
  have makes : ∀ dir,
      (Suite.makeDir dir).run.Speaks journal task.Remark := by
    intro dir
    rw [Suite.makeDir]
    refine .run_bind (.run_lift (speaks_request trivial)) ?_
    rintro (cause | done) <;> exact speaks_pure _
  have manifest :
      (suite.seedManifest source).Speaks journal task.Remark := by
    refine ((asksOnly_seedManifest suite source).mono
      fun request asked => ?_).speaks
    cases asked <;> trivial
  have judges : ∀ captured,
      (suite.judgeLock journal captured).run.Speaks journal task.Remark := by
    intro captured
    refine .run_bind (.run_lift (speaks_note (.locked suite _ _ _))) fun _ => ?_
    split
    · exact .run_lift (speaks_note (.seeded suite))
    · exact .run_bind (.run_lift (speaks_note (.unseeded suite))) fun _ =>
        speaks_pure _
  have locks : (suite.initialLock journal).run.Speaks journal task.Remark := by
    rw [Suite.initialLock]
    refine .run_bind (.run_lift (speaks_note (.seeding suite))) fun _ => ?_
    split
    · exact speaks_pure _
    · refine .run_bind (.run_lift (speaks_request trivial)) ?_
      rintro (cause | captured)
      · exact .run_bind (.run_lift (speaks_note (.unstarted suite))) fun _ =>
          speaks_pure _
      · exact judges captured
  refine .run_bind (makes _) fun _ => .run_bind (makes _) fun _ =>
    .run_bind (.run_lift manifest) ?_
  rintro (failure | target)
  · exact speaks_pure _
  · exact locks

theorem speaks_seedAll
    (pipfile : Path)
    (suites : List Suite) :
    (seedAll journal pipfile suites).run.Speaks journal task.Remark := by
  induction suites with
  | nil => exact speaks_pure _
  | cons suite rest inductionHypothesis =>
      exact .run_bind (speaks_attempt (speaks_seed suite pipfile)) fun _ =>
        inductionHypothesis

theorem speaks_seeding
    (fixture : Fixture)
    (sessionDir : Path)
    (suites : List Suite) :
    (Session.seeding journal fixture sessionDir suites).run.Speaks journal
      task.Remark := by
  have places :
      (fixture.materialize sessionDir).Speaks journal task.Remark := by
    refine ((asksOnly_materialize sessionDir fixture).mono
      fun request asked => ?_).speaks
    cases asked <;> trivial
  exact .run_bind (.run_lift (speaks_note (.opened sessionDir))) fun _ =>
    .run_bind (speaks_attempt places) fun pipfile =>
    speaks_seedAll pipfile suites

/-! ### Timing -/

theorem speaks_time
    (harness : Harness)
    (group : Group) :
    (harness.time journal group).Speaks journal task.Remark := by
  have makes : harness.makeExportDir.Speaks journal task.Remark := by
    rw [Harness.makeExportDir]
    split
    · exact speaks_pure _
    · refine .bind (speaks_request trivial) ?_
      rintro (cause | done) <;> exact speaks_pure _
  refine makes.bind ?_
  rintro (failure | done)
  · exact speaks_pure _
  · refine (speaks_note (.timing group.operation _)).bind fun _ =>
      .bind (speaks_request trivial) ?_
    rintro (cause | exit) <;> exact speaks_pure _

theorem speaks_timeGroups
    (harness : Harness)
    (suites : List Suite)
    (operations : List Operation) :
    (Session.timeGroups journal (harness.time journal) suites
      operations).Speaks journal task.Remark := by
  induction operations with
  | nil => exact speaks_pure _
  | cons operation rest inductionHypothesis =>
      rw [Session.timeGroups]
      split
      · refine inductionHypothesis.bind ?_
        rintro (failure | summary) <;> exact speaks_pure _
      · refine (speaks_note (.banner operation)).bind fun _ =>
          (speaks_time harness _).bind ?_
        rintro (failure | outcome)
        · exact speaks_pure _
        have reports : (Session.reportOutcome journal operation outcome).Speaks
            journal task.Remark := by
          rw [Session.reportOutcome]
          split
          · exact speaks_pure _
          · exact speaks_note (.failed _)
        refine reports.bind fun _ => inductionHypothesis.bind ?_
        rintro (failure | summary) <;> exact speaks_pure _

theorem speaks_reportSummary (summary : Summary) :
    (reportSummary journal summary).Speaks journal ReportRemark := by
  have looks : ∀ path,
      (Action.pathExists path).Speaks journal ReportRemark := by
    intro path
    rw [Action.pathExists]
    exact .bind (speaks_request trivial) fun _ => speaks_pure _
  have announces : ∀ outcome,
      (announceExport journal outcome).Speaks journal ReportRemark := by
    intro outcome
    rw [announceExport]
    split
    · exact speaks_pure _
    · refine (looks _).bind fun isThere => ?_
      split
      · exact speaks_note (.exported _ _)
      · exact speaks_pure _
  exact (speaks_forM fun _ => speaks_note (.skipped _)).bind fun _ =>
    (speaks_forM announces).bind fun _ => speaks_note (.closing summary)

/-! ### The run as a whole -/

/-- What a run says. -/
def MaySay
    (task : RunTask)
    (one : Utterance) : Prop :=
  task.Remark one ∨ ReportRemark one

theorem speaks_session
    (config : Config)
    (verbosity : Nat)
    (fixture : Fixture)
    (tools : List (Tool × List Path))
    (hyperfine sessionDir : Path) :
    (task.session journal config verbosity fixture tools hyperfine
      sessionDir).run.Speaks journal task.MaySay := by
  rw [Session.session_eq]
  exact .run_bind ((speaks_seeding _ _ _).mono fun _ => .inl) fun _ =>
    .run_bind (.run_lift (speaks_heading (.inl (.heading _)))) fun _ =>
    .run_bind (speaks_attempt
      ((speaks_timeGroups _ _ _).mono fun _ => .inl)) fun summary =>
    .run_bind (.run_lift ((speaks_reportSummary summary).mono fun _ => .inr))
      fun _ => speaks_pure _

/-- A run says nothing but what is listed. -/
theorem speaks_perform
    (task : RunTask)
    (journal : Journal)
    (config : Config)
    (verbosity : Nat) :
    (task.perform journal config verbosity).run.Speaks journal
      task.MaySay := by
  rw [perform_eq_seek]
  refine .run_bind ((speaks_seek config).mono fun _ => .inl) fun found => ?_
  split
  · exact speaks_pure _
  · exact .run_bind (.run_lift (speaks_temporaryDir.mono fun _ => .inl))
      fun parent =>
      .run_bind (speaks_attempt (speaks_request trivial)) fun sessionDir =>
      .run_bind (.run_lift (speaks_session _ _ _ _ _ _)) fun result =>
      .run_bind (.run_lift (speaks_request trivial)) fun _ =>
      speaks_attempt (speaks_pure result)

end Speaking
end RunTask

/-! ## What is shown of it -/

namespace Utterance

/-- A warning or an error. -/
def IsWarning : Utterance -> Prop
  | .note (.warn _) => True
  | .note (.error _) => True
  | .note (.failure _) => True
  | _ => False

/-- What is shown at every verbosity, although it is neither a warning nor an
error. -/
def IsAnnouncement : Utterance -> Prop
  | .note (.success _) => True
  | .note (.banner _) => True
  | .heading _ _ _ => True
  | _ => False

/-- With no verbosity, the console shows warnings and errors, announcements,
and nothing else. -/
theorem shown_ne_nil_iff
    {journal : Journal}
    (quiet : journal.verbosity = 0)
    (one : Utterance) :
    one.shown journal ≠ [] ↔ one.IsWarning ∨ one.IsAnnouncement := by
  cases one with
  | heading fixture suites operations => simp [shown, IsAnnouncement]
  | note entry =>
      cases entry <;>
        simp [shown, textOn, quiet, Entry.stdout, Entry.stderr, Entry.labelled,
          IsWarning, IsAnnouncement]

/-- A plain warning or error is on the standard error, and no tick is in front
of it. -/
theorem head?_ne_of_isWarning
    {journal : Journal}
    (plain : journal.colored = false)
    {one : Utterance}
    (isWarning : one.IsWarning)
    {written : Written}
    (isShown : written ∈ one.shown journal) :
    ∃ text, written = .error text ∧ text.toList.head? ≠ some '✔' := by
  cases one with
  | heading fixture suites operations => exact isWarning.elim
  | note entry =>
      have onError : ∀ text, entry.stdout journal.colored = "" ->
          entry.stderr journal.verbosity journal.colored = text ->
            written = .error text := by
        rintro text noOutput rfl
        simp only [shown, List.mem_append, mem_textOn_iff, noOutput] at isShown
        exact (isShown.resolve_left fun output => output.1 rfl).2
      cases entry with
      | warn message => exact ⟨_, onError _ rfl rfl, by
          simp [Entry.stderr, Entry.labelled, plain]⟩
      | error message => exact ⟨_, onError _ rfl rfl, by
          simp [Entry.stderr, Entry.labelled, plain]⟩
      | failure message => exact ⟨_, onError _ rfl rfl, by
          simp [Entry.stderr, Entry.labelled, plain]⟩
      | _ => exact isWarning.elim

end Utterance

namespace RunTask

section Showing

variable {task : RunTask} {journal : Journal} {config : Config}
  {transcript : List Exchange}

/-- A run that comes to its end has shown the heading of its session. -/
theorem heading_of_yields
    {verbosity : Nat}
    {summary : Summary}
    (yields : (task.perform journal config verbosity).run.Yields transcript
      (.ok summary)) :
    ∃ suites, Written.output (headerText journal.colored task.fixture suites
      task.chosenOperations) ∈ console transcript := by
  rw [perform_eq_seek, yields_run_bind_iff] at yields
  obtain ⟨_, -, ⟨⟩⟩ | ⟨found, _, _, -, goesOn, rfl⟩ := yields
  split at goesOn
  · obtain ⟨-, ⟨⟩⟩ := yields_run_throw_iff.mp goesOn
  obtain ⟨parent, _, _, -, opening, rfl⟩ := yields_run_lift_bind_iff.mp goesOn
  rw [yields_run_bind_iff] at opening
  obtain ⟨_, -, ⟨⟩⟩ | ⟨sessionDir, _, _, -, inside, rfl⟩ := opening
  obtain ⟨_, _, _, session, ended, rfl⟩ :=
    yields_run_exceptLift_bind_iff.mp inside
  obtain ⟨-, rfl⟩ := Session.ended_of_yields ended
  rw [Session.session_eq, yields_run_bind_iff] at session
  obtain ⟨_, -, ⟨⟩⟩ | ⟨_, _, _, -, timed, rfl⟩ := session
  obtain ⟨_, _, _, printed, -, rfl⟩ := yields_run_lift_bind_iff.mp timed
  obtain rfl := yields_request_iff.mp printed
  refine ⟨planSuites (config.projectOptions none none) sessionDir
    (withBinaries found.tools), ?_⟩
  simp [console, Exchange.written?]

/-- Where only warnings and errors are wanted, what a run itself writes to the
console is the text of its warnings and errors, in their order with that of its
successes, of its banners and of the heading of its session.  All that it says
has its records in the log, if there is one, and everything else it says is
nowhere but there.  A run that comes to its end has shown the heading, so that
no such run is quiet. -/
theorem quiet_run_shows
    {loudness : CommandLine.Loudness}
    (quiet : loudness.quiet = true)
    (isSet : journal.verbosity = loudness.level)
    {result : Except Failure Summary}
    (runs : (task.perform journal config loudness.level).run.Yields transcript
      result) :
    (∃ said, Utters journal said transcript ∧ (∀ one ∈ said, task.MaySay one) ∧
      ∀ one ∈ said,
        one.shown journal ≠ [] ↔ one.IsWarning ∨ one.IsAnnouncement) ∧
      ∀ summary, result = .ok summary -> ∃ suites,
        Written.output (headerText journal.colored task.fixture suites
          task.chosenOperations) ∈ console transcript := by
  have noVerbosity : journal.verbosity = 0 := by
    rw [isSet, CommandLine.Loudness.level, if_pos quiet]
  obtain ⟨said, utters, each⟩ :=
    speaks_perform task journal config loudness.level transcript result runs
  refine ⟨⟨said, utters, each, fun one _ =>
    one.shown_ne_nil_iff noVerbosity⟩, ?_⟩
  rintro summary rfl
  exact heading_of_yields runs

end Showing

/-! ### Quiet runs on a host with obstacles -/

/-- Nothing but warnings is wanted, although more was asked for as well. -/
def quietly : CommandLine.Loudness where
  quiet := true
  verbose := 2

/-- A journal without a log, as loud as is wanted. -/
def quietJournal : Journal where
  verbosity := quietly.level

/-- What comes of a quiet run. -/
def quietRun
    (task : RunTask) : Except Failure Summary × List Exchange × FileTree :=
  (task.perform quietJournal {} quietly.level).run.on Session.Obstructed.host
    .empty

theorem yields_quietRun (task : RunTask) :
    (task.perform quietJournal {} quietly.level).run.Yields (quietRun task).2.1
      (quietRun task).1 :=
  Action.yields_on (fun _ _ => rfl) _ .empty

/-- A tool without a binary and a lock that fails are told, and so is the lock
that succeeds. -/
theorem quiet_run_shows_broken :
    let transcript := (quietRun Session.Obstructed.task).2.1
    console transcript =
        [.error "warning: pipenv not found on PATH, skipping\n",
          .error "✔ Set up ripenv (ripenv-0)\n",
          .error "  ✗ Setting up ripenv (broken-1) failed\n"] ∧
      ∃ said, Utters quietJournal said transcript ∧
        (∀ one ∈ said, Session.Obstructed.task.MaySay one) ∧
        ∀ one ∈ said,
          one.shown quietJournal ≠ [] ↔ one.IsWarning ∨ one.IsAnnouncement :=
  ⟨by decide +kernel, (quiet_run_shows rfl rfl (yields_quietRun _)).1⟩

/-- One binary is timed. -/
def lockOnce : RunTask where
  fixture := "/Pipfile"
  tools := { ripenv := true }
  paths := { ripenv := ["/bin/ripenv"] }
  operations := [.lockCold]
  hyperfine := some ⟨"/bin/hyperfine"⟩

theorem console_lockOnce :
    console (quietRun lockOnce).2.1 =
      [.error "✔ Set up ripenv (ripenv)\n",
        .output ("\nBenchmarking fixture: /Pipfile\n" ++
          "Tools: ripenv (ripenv)\nBenchmarks: lock-cold\n"),
        .output ("\n" ++ Entry.rule ++ "\n  Benchmark: lock-cold\n" ++
          Entry.rule ++ "\n\n"),
        .error "✔ Completed 1 benchmark(s)\n"] := by decide +kernel

/-- A quiet run that succeeds shows four texts, and none of them is that of a
warning or an error. -/
theorem quiet_run_shows_more :
    let transcript := (quietRun lockOnce).2.1
    (lockOnce.perform quietJournal {} quietly.level).run.Yields transcript
        (quietRun lockOnce).1 ∧
      (console transcript).length = 4 ∧
      ∀ written ∈ console transcript, ∀ one : Utterance, one.IsWarning ->
        written ∉ one.shown quietJournal := by
  intro transcript
  have ticks : ∀ text, Written.error text ∈ console transcript ->
      text.toList.head? = some '✔' := by
    rw [console_lockOnce]
    simp
  refine ⟨yields_quietRun lockOnce, by rw [console_lockOnce]; rfl, ?_⟩
  intro written member one isWarning isShown
  obtain ⟨text, rfl, notTick⟩ :=
    Utterance.head?_ne_of_isWarning rfl isWarning isShown
  exact notTick (ticks text member)

end RunTask
end LockBench
