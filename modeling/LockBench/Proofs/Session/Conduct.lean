import LockBench.Proofs.Session.Finding
import LockBench.Proofs.Session.Submissions

/-!
# The processes of a run

A run that has found what it needs, and has put its session's directory and
its fixture in place, starts the first locks of its suites in order, and only
when all of them have succeeded the processes that time its operations.  It
starts nothing else, apart from asking what shims stand for.
-/

namespace LockBench

open LockBench.Action

namespace RunTask

/-- The suites of what was found, in the session's directory. -/
def Found.suites
    (found : Found)
    (config : Config)
    (sessionDir : Path) : List Suite :=
  planSuites (config.projectOptions none none) sessionDir found.tools

/-- The timing program that was found, with its options. -/
def Found.harness
    (found : Found)
    (task : RunTask)
    (config : Config)
    (verbosity : Nat) : Harness :=
  ⟨found.hyperfine, task.harnessOptions config verbosity⟩

/-- The part of a session that comes before its suites. -/
def layOut
    (journal : Journal)
    (fixture : Fixture)
    (sessionDir : Path) : Attempt Path := do
  journal.note (.debug ("Session directory: " ++ sessionDir.text))
  Attempt.lift Failure.ofFixture (fixture.materialize sessionDir)

/-- The part of a run that makes the session's directory and the file of the
fixture. -/
def place
    (journal : Journal)
    (fixture : Fixture) : Attempt (Path × Path) := do
  let parent ← temporaryDir
  let sessionDir ← Attempt.lift .io
    (Action.makeFreshDir parent "bench-ripenv-")
  let pipfile ← layOut journal fixture sessionDir
  return (sessionDir, pipfile)

end RunTask

namespace Session

/-! ## What may come of a run -/

/-- How a session goes whose directory and fixture are in place, and the
processes that it starts. -/
inductive Conducted
    (pipfile : Path)
    (suites : List Suite)
    (harness : Harness)
    (operations : List Operation) :
    Except Failure Summary -> List Exchange -> List Spawn -> Prop
  /-- A suite could not be seeded: the session ends with the failure of that
  suite, after the first locks of the suites before it, and after its own if it
  came to that. -/
  | stopped
      {early late : List Suite}
      {suite : Suite}
      {failure : SeedFailure}
      {before attempt after : List Exchange}
      (split : suites = early ++ suite :: late)
      (seeded : AllSeeded pipfile early before)
      (fails : suite.Seeds pipfile (.error failure) attempt)
      (attempted : spawns attempt = [] ∨ ∃ ended, ended ≠ .ok (.code 0) ∧
        spawns attempt = [⟨suite.launch .lock, ended⟩]) :
      Conducted pipfile suites harness operations (.error (.ofSeed failure))
        (before ++ (attempt ++ after))
        (early.map Suite.firstLock ++ spawns attempt)
  /-- All suites were seeded: their first locks are followed by the processes
  of the submitted groups. -/
  | timed
      {calls : Record}
      {ended : Except HarnessFailure Summary}
      {before timing : List Exchange}
      (seeded : AllSeeded pipfile suites before)
      (timed : TimedInOrder harness suites operations calls ended timing) :
      Conducted pipfile suites harness operations (ended.mapError .harness)
        (before ++ timing) (suites.map Suite.firstLock ++ spawns timing)

/-- How a run goes on that has found a binary, and all that it is answered from
then on. -/
inductive Continues
    (task : RunTask)
    (journal : Journal)
    (config : Config)
    (verbosity : Nat)
    (found : RunTask.Found) : Except Failure Summary -> List Exchange -> Prop
  /-- The session's directory or the fixture could not be made. -/
  | unplaced
      {failure : Failure}
      {placing after : List Exchange}
      (fails : (RunTask.place journal found.fixture).run.Yields placing
        (.error failure))
      (startsNone : spawns (placing ++ after) = []) :
      Continues task journal config verbosity found (.error failure)
        (placing ++ after)
  /-- Both are in place.  There is a suite for every binary, in order of the
  tools and their binaries, as if the tools without any had not been asked
  for. -/
  | placed
      {sessionDir pipfile : Path}
      {result : Except Failure Summary}
      {placing session : List Exchange}
      (places : (RunTask.place journal found.fixture).run.Yields placing
        (.ok (sessionDir, pipfile)))
      (startsNone : spawns placing = [])
      (inOrder : (found.suites config sessionDir).map
          (fun suite => (suite.tool, suite.context.binary)) =
        found.tools.flatMap fun (tool, binaries) => binaries.map (tool, ·))
      (undisturbed : found.suites config sessionDir =
        RunTask.planSuites (config.projectOptions none none) sessionDir
          (found.tools.filter fun entry => !entry.2.isEmpty))
      (conducted : Conducted pipfile (found.suites config sessionDir)
        (found.harness task config verbosity) task.chosenOperations result
        session (spawns session)) :
      Continues task journal config verbosity found result
        (placing ++ session)

/-- How a run goes on that has found its fixture and its timing program. -/
structure Proceeds
    (task : RunTask)
    (journal : Journal)
    (config : Config)
    (verbosity : Nat)
    (found : RunTask.Found)
    (result : Except Failure Summary)
    (transcript : List Exchange) : Prop where
  /-- All tools of the run were looked for, in order. -/
  selected : found.tools.map Prod.fst = task.tools.selected
  /-- There is nothing to time exactly where no tool has a binary. -/
  noTools_iff : result = .error .noTools ↔ ∀ entry ∈ found.tools, entry.2 = []
  /-- Where there is nothing to time, nothing more happens. -/
  noTools_ends : result = .error .noTools -> transcript = []
  /-- Where some tool has a binary, the session begins. -/
  continues : (∃ entry ∈ found.tools, entry.2 ≠ []) ->
    Continues task journal config verbosity found result transcript

/-! ## The session -/

section Courses

variable {transcript : List Exchange} {journal : Journal} {config : Config}
  {pipfile : Path} {suites : List Suite} {harness : Harness}
  {operations : List Operation} {result : Except Failure Summary}

theorem ofSeed_ne_noTools (failure : SeedFailure) :
    Failure.ofSeed failure ≠ .noTools := by
  cases failure <;> rintro ⟨⟩

/-- A session that has begun does not end for want of tools. -/
theorem Conducted.ne_noTools
    {spawned : List Spawn}
    (conducted : Conducted pipfile suites harness operations result transcript
      spawned) : result ≠ .error .noTools := by
  cases conducted with
  | stopped split seeded fails attempted =>
      intro same
      exact ofSeed_ne_noTools _ (Except.error.inj same)
  | timed seeded timed =>
      rename_i ended _ _
      cases ended <;> rintro ⟨⟩

/-- Nothing that a suite has failed to be seeded after is changed by what
follows without a process. -/
theorem conducted_of_stopped
    {failure : Failure}
    {seeding after : List Exchange}
    (seeds : SeedsInOrder pipfile suites (.error failure) seeding)
    (startsNone : spawns after = []) :
    Conducted pipfile suites harness operations (.error failure)
      (seeding ++ after) (spawns (seeding ++ after)) := by
  cases seeds with
  | stopped split seeded fails =>
      rw [List.append_assoc, spawns_append, spawns_append, startsNone,
        List.append_nil, seeded.spawns_eq]
      exact .stopped split seeded fails fails.spawns_of_error

/-- Seeded suites are timed. -/
theorem conducted_of_timed
    {ended : Except HarnessFailure Summary}
    {calls : Record}
    {seeding timing : List Exchange}
    (seeds : SeedsInOrder pipfile suites (.ok ()) seeding)
    (timed : TimedInOrder harness suites operations calls ended timing) :
    Conducted pipfile suites harness operations (ended.mapError .harness)
      (seeding ++ timing) (spawns (seeding ++ timing)) := by
  cases seeds with
  | all seeded =>
      rw [spawns_append, seeded.spawns_eq]
      exact .timed seeded timed

/-- Timing may be preceded and followed by what starts no process. -/
theorem TimedInOrder.between
    {ended : Except HarnessFailure Summary}
    {calls : Record}
    {before timing after : List Exchange}
    (startsNone : spawns before = [])
    (startsNoneAfter : spawns after = [])
    (timed : TimedInOrder harness suites operations calls ended timing) :
    TimedInOrder harness suites operations calls ended
      (before ++ (timing ++ after)) :=
  timedInOrder_of_submits timed.traced
    ((timed.submits.before startsNoneAfter).after startsNone)

theorem startsOnly_reportSummary
    {allowed : Spawn -> Prop}
    (journal : Journal)
    (summary : Summary) :
    (RunTask.reportSummary journal summary).StartsOnly allowed := by
  refine (RunTask.asksOnly_reportSummary journal summary).startsNone
    fun request asked _ => ?_
  rcases asked with ⟨noted⟩ | path
  · cases noted <;> rfl
  · rfl

/-- A session whose directory and fixture are in place seeds its suites and
times its operations, whatever follows it. -/
theorem conducted_of_yields
    {text : String}
    {after : List Exchange}
    (yields : (do
      RunTask.seedAll journal pipfile suites
      Action.print text
      let summary ← Attempt.lift .harness
        (timeGroups journal (harness.time journal) suites operations)
      RunTask.reportSummary journal summary
      return summary : Attempt Summary).run.Yields transcript result)
    (startsNone : spawns after = []) :
    Conducted pipfile suites harness operations result (transcript ++ after)
      (spawns (transcript ++ after)) := by
  rw [yields_run_bind_iff] at yields
  obtain ⟨failure, seeding, rfl⟩ | ⟨_, early, _, seeding, seeded, rfl⟩ := yields
  · exact conducted_of_stopped (seedsInOrder_of_yields seeding) startsNone
  have seeds := seedsInOrder_of_yields seeding
  obtain ⟨_, printing, _, printed, timing, rfl⟩ :=
    yields_run_lift_bind_iff.mp seeded
  have quietPrinting : spawns printing = [] :=
    IsQuiet.spawns_eq (startsOnly_of_none fun _ => rfl) printed
  rw [yields_run_bind_iff] at timing
  simp only [yields_attempt_iff] at timing
  obtain ⟨failure, ⟨ended, timed, failed⟩, rfl⟩ |
    ⟨summary, _, _, ⟨ended, timed, succeeded⟩, reporting, rfl⟩ := timing
  · obtain ⟨calls, inOrder⟩ := timedInOrder_of_yields timed
    rw [failed, List.append_assoc, List.append_assoc]
    exact conducted_of_timed seeds (inOrder.between quietPrinting startsNone)
  · obtain ⟨calls, inOrder⟩ := timedInOrder_of_yields timed
    obtain ⟨_, reports, _, reported, returned, rfl⟩ :=
      yields_run_lift_bind_iff.mp reporting
    obtain ⟨rfl, rfl⟩ := yields_run_pure_iff.mp returned
    have quietAfter : spawns (reports ++ after) = [] := by
      rw [spawns_append, startsNone,
        IsQuiet.spawns_eq (startsOnly_reportSummary _ _) reported]
      rfl
    rw [succeeded, List.append_nil, List.append_assoc, List.append_assoc,
      List.append_assoc]
    exact conducted_of_timed seeds (inOrder.between quietPrinting quietAfter)

/-- The directory of a session is removed whatever came of it. -/
theorem ended_of_yields
    {sessionDir : Path}
    {outcome : Except Failure Summary}
    (yields : (do
      Action.removeTree sessionDir
      Attempt.lift id (pure outcome) : Attempt Summary).run.Yields transcript
        result) : spawns transcript = [] ∧ result = outcome := by
  obtain ⟨_, rest, ended, spawns_eq⟩ :=
    IsQuiet.of_run_bind (startsOnly_of_none fun _ => rfl) yields
  obtain ⟨given, returned, rfl⟩ := yields_attempt_iff.mp ended
  obtain ⟨rfl, rfl⟩ := yields_pure_iff.mp returned
  refine ⟨spawns_eq, ?_⟩
  cases given <;> rfl

theorem startsOnly_temporaryDir
    {allowed : Spawn -> Prop} : RunTask.temporaryDir.StartsOnly allowed := by
  refine .bind (startsOnly_of_none fun _ => rfl) fun asked => ?_
  dsimp only
  split
  · exact startsOnly_pure _
  · exact (startsOnly_of_none fun _ => rfl).bind fun _ => startsOnly_pure _

/-- Putting the session's directory and the fixture in place starts no
process. -/
theorem startsOnly_place
    {allowed : Spawn -> Prop}
    (journal : Journal)
    (fixture : Fixture) :
    (RunTask.place journal fixture).run.StartsOnly allowed :=
  .run_bind (.run_lift startsOnly_temporaryDir) fun _ =>
    .run_bind (RunTask.startsOnly_attempt (startsOnly_of_none fun _ => rfl))
      fun _ => .run_bind (.run_bind (.run_lift (startsOnly_note _ _)) fun _ =>
        RunTask.startsOnly_attempt (Fixture.startsOnly_materialize _ _))
        fun _ => startsOnly_pure _

/-- The session's directory and the fixture are put in place one after the
other. -/
theorem yields_place
    {fixture : Fixture}
    {parent sessionDir : Path}
    {looking opening laying : List Exchange}
    {outcome : Except Failure Path}
    (looked : RunTask.temporaryDir.Yields looking parent)
    (opened : (Attempt.lift .io
      (Action.makeFreshDir parent "bench-ripenv-")).run.Yields opening
        (.ok sessionDir))
    (laid : (RunTask.layOut journal fixture sessionDir).run.Yields laying
      outcome) :
    (RunTask.place journal fixture).run.Yields (looking ++ (opening ++ laying))
      (outcome.map fun pipfile => (sessionDir, pipfile)) := by
  have placing : (RunTask.layOut journal fixture sessionDir >>= fun pipfile =>
      pure (sessionDir, pipfile) : Attempt (Path × Path)).run.Yields laying
        (outcome.map fun pipfile => (sessionDir, pipfile)) := by
    rw [yields_run_bind_iff]
    cases outcome with
    | error failure => exact .inl ⟨failure, laid, rfl⟩
    | ok pipfile =>
        exact .inr ⟨pipfile, laying, [], laid,
          yields_run_pure_iff.mpr ⟨rfl, rfl⟩, (List.append_nil _).symm⟩
  rw [RunTask.place, yields_run_lift_bind_iff]
  refine ⟨parent, looking, _, looked, ?_, rfl⟩
  rw [yields_run_bind_iff]
  exact .inr ⟨sessionDir, opening, laying, opened, placing, rfl⟩

/-- A run that has found a binary puts its session in place and carries it
out. -/
theorem continues_of_yields
    {task : RunTask}
    {verbosity : Nat}
    {found : RunTask.Found}
    (yields : (do
      let parent ← RunTask.temporaryDir
      let sessionDir ← Attempt.lift .io
        (Action.makeFreshDir parent "bench-ripenv-")
      let result ← ExceptT.lift (task.session journal config verbosity
        found.fixture (RunTask.withBinaries found.tools) found.hyperfine
        sessionDir).run
      Action.removeTree sessionDir
      Attempt.lift id (pure result) : Attempt Summary).run.Yields transcript
        result) :
    Continues task journal config verbosity found result transcript := by
  obtain ⟨parent, looking, _, looked, goesOn, rfl⟩ :=
    yields_run_lift_bind_iff.mp yields
  rw [yields_run_bind_iff] at goesOn
  obtain ⟨failure, opened, rfl⟩ | ⟨sessionDir, opening, _, opened, session,
    rfl⟩ := goesOn
  · have fails : (RunTask.place journal found.fixture).run.Yields _
        (.error failure) :=
      yields_run_lift_bind_iff.mpr ⟨parent, looking, _, looked,
        yields_run_bind_iff.mpr (.inl ⟨failure, opened, rfl⟩), rfl⟩
    rw [← List.append_nil (looking ++ _)]
    refine .unplaced fails ?_
    rw [List.append_nil]
    exact IsQuiet.spawns_eq (startsOnly_place _ _) fails
  obtain ⟨outcome, carrying, after, carried, removal, rfl⟩ :=
    yields_run_exceptLift_bind_iff.mp session
  obtain ⟨startsNone, rfl⟩ := ended_of_yields removal
  -- The first two steps of the session lay out its directory, which is the end
  -- of what puts it in place.
  rw [RunTask.session, ← bind_assoc] at carried
  change (RunTask.layOut journal found.fixture sessionDir >>= _).run.Yields
    carrying result at carried
  rw [yields_run_bind_iff] at carried
  obtain ⟨failure, laid, rfl⟩ | ⟨pipfile, laying, conducting, laid, conducted,
    rfl⟩ := carried
  · have fails := yields_place looked opened laid
    have transcript_eq : looking ++ (opening ++ (carrying ++ after)) =
        looking ++ (opening ++ carrying) ++ after := by
      simp only [List.append_assoc]
    rw [transcript_eq]
    refine .unplaced fails ?_
    rw [spawns_append, startsNone,
      IsQuiet.spawns_eq (startsOnly_place _ _) fails]
    rfl
  · have places := yields_place looked opened laid
    have transcript_eq :
        looking ++ (opening ++ (laying ++ conducting ++ after)) =
          looking ++ (opening ++ laying) ++ (conducting ++ after) := by
      simp only [List.append_assoc]
    rw [transcript_eq]
    rw [RunTask.planSuites_withBinaries] at conducted
    exact .placed places (IsQuiet.spawns_eq (startsOnly_place _ _) places)
      (RunTask.planSuites_in_order _ _ _)
      (RunTask.planSuites_withBinaries _ _ _).symm
      (conducted_of_yields conducted startsNone)

/-- What cannot be put in place is not told as a want of tools. -/
theorem ne_noTools_of_place
    {fixture : Fixture}
    {failure : Failure}
    (fails : (RunTask.place journal fixture).run.Yields transcript
      (.error failure)) : failure ≠ .noTools := by
  obtain ⟨_, _, _, -, opening, -⟩ := yields_run_lift_bind_iff.mp fails
  rw [yields_run_bind_iff] at opening
  obtain ⟨_, asked, failed⟩ | ⟨_, _, _, -, laying, -⟩ := opening
  · obtain ⟨given, -, given_eq⟩ := yields_attempt_iff.mp asked
    cases failed
    cases given <;> cases given_eq
    rintro ⟨⟩
  rw [yields_run_bind_iff] at laying
  obtain ⟨_, laid, failed⟩ | ⟨_, _, _, -, returned, -⟩ := laying
  · obtain ⟨_, _, _, -, materialized, -⟩ := yields_run_lift_bind_iff.mp laid
    obtain ⟨given, -, given_eq⟩ := yields_attempt_iff.mp materialized
    cases failed
    cases given with
    | error cause =>
        cases given_eq
        cases cause <;> rintro ⟨⟩
    | ok pipfile => cases given_eq
  · obtain ⟨-, failed⟩ := yields_run_pure_iff.mp returned
    cases failed

theorem Continues.ne_noTools
    {task : RunTask}
    {verbosity : Nat}
    {found : RunTask.Found}
    (continues : Continues task journal config verbosity found result
      transcript) : result ≠ .error .noTools := by
  cases continues with
  | unplaced fails startsNone =>
      intro same
      exact ne_noTools_of_place fails (Except.error.inj same)
  | placed places startsNone inOrder undisturbed conducted =>
      exact conducted.ne_noTools

/-- Whatever a run is answered: it first looks for what it needs, and starts no
process but to ask what a shim stands for.  With nothing to time it ends there.
Otherwise, once the session's directory and the fixture are in place, it starts
the first locks of its suites in order, up to the first suite that cannot be
seeded, and after the last one of them the processes of the groups that are
submitted. -/
theorem seeding_precedes_timing
    {task : RunTask}
    {verbosity : Nat}
    (runs : (task.perform journal config verbosity).run.Yields transcript
      result) :
    ∃ sought search rest,
      (task.seek journal config).run.Yields search sought ∧
        transcript = search ++ rest ∧
        (∀ spawn ∈ spawns search, IsLookup spawn) ∧
        (∀ failure, sought = .error failure ->
          result = .error failure ∧ rest = []) ∧
        ∀ found, sought = .ok found ->
          Proceeds task journal config verbosity found result rest := by
  rw [RunTask.perform_eq_seek, yields_run_bind_iff] at runs
  obtain ⟨failure, searched, rfl⟩ | ⟨found, search, rest, searched, goesOn, rfl⟩ :=
    runs
  · refine ⟨.error failure, transcript, [], searched,
      (List.append_nil _).symm, RunTask.startsOnly_seek _ _ _ _ _ searched, ?_,
      ?_⟩
    · rintro _ ⟨⟩
      exact ⟨rfl, rfl⟩
    · rintro found ⟨⟩
  refine ⟨.ok found, search, rest, searched, rfl,
    RunTask.startsOnly_seek _ _ _ _ _ searched, ?_, ?_⟩
  · rintro _ ⟨⟩
  rintro _ ⟨⟩
  have selected := RunTask.tools_of_seek searched
  split at goesOn
  · rename_i isEmpty
    rw [RunTask.withBinaries_isEmpty_iff] at isEmpty
    obtain ⟨rfl, rfl⟩ := yields_run_throw_iff.mp goesOn
    refine ⟨selected, by simpa using isEmpty, fun _ => rfl, ?_⟩
    rintro ⟨entry, member, someBinary⟩
    exact absurd (isEmpty entry member) someBinary
  · rename_i notEmpty
    rw [RunTask.withBinaries_isEmpty_iff] at notEmpty
    have continues := continues_of_yields goesOn
    refine ⟨selected, ?_, ?_, fun _ => continues⟩
    · exact iff_of_false continues.ne_noTools notEmpty
    · exact fun same => absurd same continues.ne_noTools

end Courses

/-! ## Runs on a host with obstacles -/

namespace Obstructed

/-- A host where all files are there, no directory can be made below a file,
and one program fails. -/
def answer : (request : Request) -> request.Answer
  | .variable _ => none
  | .workingDir => ⟨"/"⟩
  | .kind _ => some (.file true)
  | .rawKind _ => none
  | .read _ => .ok .empty
  | .rawRead _ => .error .noSuchFile
  | .write _ _ => .ok ()
  | .append _ _ => .ok ()
  | .copy _ _ => .ok ()
  | .makeDirs path =>
    if path = ⟨"/Pipfile/results"⟩ then .error .notADirectory else .ok ()
  | .entries _ => .ok []
  | .removeFile _ => .ok ()
  | .makeFreshDir parent stem => .ok (parent.join (stem ++ "0"))
  | .removeTree _ => ()
  | .capture launch =>
    .ok ⟨if launch.program = "/bin/broken" then .code 1 else .code 0, .empty,
      .empty⟩
  | .attend _ => .ok (.code 0)
  | .clock => ""
  | .print _ => ()
  | .printError _ => ()

/-- Every request is observed with its answer. -/
def host : Action.Host Exchange := fun request tree =>
  (answer request, [⟨request, answer request⟩], tree)

/-- Two binaries of a tool, one of them broken, and one of another tool. -/
def task : RunTask where
  fixture := "/Pipfile"
  tools := { ripenv := true, pipenv := true, uv := true }
  paths := { ripenv := ["/bin/ripenv", "/bin/broken"], uv := ["/bin/uv"] }
  operations := [.lockCold]
  hyperfine := some ⟨"/bin/hyperfine"⟩

/-- The directory of every session. -/
def sessionDir : Path := ⟨"/tmp/bench-ripenv-0"⟩

/-- The suite of one of some binaries. -/
def suite
    (tool : Tool)
    (count index : Nat)
    (binary : Path) : Suite where
  tool := tool
  context := planContext tool sessionDir count index binary

end Obstructed

/-- The second suite cannot be locked, so the third one is left alone, and
nothing is timed.  The tool without a binary takes no part. -/
theorem seeding_precedes_timing_broken :
    let run := (Obstructed.task.perform {} {} 0).run.on Obstructed.host .empty
    let first := Obstructed.suite .ripenv 2 0 ⟨"/bin/ripenv"⟩
    let second := Obstructed.suite .ripenv 2 1 ⟨"/bin/broken"⟩
    run.1 = .error (.lock (second.failedLock ⟨.code 1, .empty, .empty⟩)) ∧
      spawns run.2.1 =
        [first.firstLock, ⟨second.launch .lock, .ok (.code 1)⟩] ∧
      (Obstructed.task.perform {} {} 0).run.Yields run.2.1 run.1 ∧
      ∃ sought search rest,
        (Obstructed.task.seek {} {}).run.Yields search sought ∧
          run.2.1 = search ++ rest ∧
          (∀ spawn ∈ spawns search, IsLookup spawn) ∧
          (∀ failure, sought = .error failure ->
            run.1 = .error failure ∧ rest = []) ∧
          ∀ found, sought = .ok found ->
            Proceeds Obstructed.task {} {} 0 found run.1 rest := by
  intro run first second
  have runs : (Obstructed.task.perform {} {} 0).run.Yields run.2.1 run.1 :=
    Action.yields_on (fun _ _ => rfl) _ .empty
  exact ⟨by decide +kernel, by decide +kernel, runs,
    seeding_precedes_timing runs⟩

/-- A submitted group has no process where the directory of exported timings
cannot be made, although all suites were seeded. -/
theorem submitted_group_without_process :
    let task : RunTask :=
      { fixture := "/Pipfile"
        tools := { ripenv := true }
        paths := { ripenv := ["/bin/ripenv"] }
        operations := [.lockCold]
        json := true
        resultsDir := some ⟨"/Pipfile/results"⟩
        hyperfine := some ⟨"/bin/hyperfine"⟩ }
    let run := (task.perform {} {} 0).run.on Obstructed.host .empty
    let only := Obstructed.suite .ripenv 1 0 ⟨"/bin/ripenv"⟩
    (task.perform {} {} 0).run.Yields run.2.1 run.1 ∧
      run.1 = .error (.harness
        (.resultsDir ⟨"/Pipfile/results"⟩ .notADirectory)) ∧
      (Group.collect? [only] .lockCold).isSome = true ∧
      spawns run.2.1 = [only.firstLock] := by
  intro task run only
  exact ⟨Action.yields_on (fun _ _ => rfl) _ .empty, by decide +kernel,
    by decide +kernel, by decide +kernel⟩

end Session
end LockBench
