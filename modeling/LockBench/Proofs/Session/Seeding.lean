import LockBench.Proofs.Host.Transcripts
import LockBench.Proofs.Session.Launches
import LockBench.Proofs.Session.Requests

/-!
# Transcripts of seeding

A suite is seeded in steps: its two directories, its manifest, and its first
lock.  The first step that fails is the last one, and only the lock starts a
process.  Suites are seeded in order, up to the first one that fails.
-/

namespace LockBench

open LockBench.Action

variable {allowed : Spawn -> Prop} {transcript : List Exchange}

/-! ## Steps that start no process -/

/-- Notes start no process. -/
theorem startsOnly_note
    (journal : Journal)
    (entry : Entry) : (journal.note entry).StartsOnly allowed := by
  refine (asksOnly_note journal entry).startsNone fun request asked _ => ?_
  cases asked <;> rfl

/-- Putting a manifest in place starts no process. -/
theorem startsOnly_seedManifest
    (suite : Suite)
    (source : Path) : (suite.seedManifest source).StartsOnly allowed := by
  refine (asksOnly_seedManifest suite source).startsNone
    fun request asked _ => ?_
  cases asked <;> rfl

/-! ## Seeding a suite -/

/-- A directory was asked for. -/
def Exchange.made
    (path : Path)
    (answer : Except OsError Unit) : Exchange :=
  ⟨.makeDirs path, answer⟩

@[simp] theorem spawns_made
    (path : Path)
    (answer : Except OsError Unit)
    (rest : List Exchange) :
    spawns (.made path answer :: rest) = spawns rest := rfl

namespace Suite

variable {suite : Suite} {journal : Journal} {pipfile : Path}

/-- The first lock of a suite, with success. -/
def firstLock (suite : Suite) : Spawn :=
  ⟨suite.launch .lock, .ok (.code 0)⟩

/-- A first lock without success, as it is reported. -/
def failedLock
    (suite : Suite)
    (captured : Captured) : FailedLock where
  tool := suite.tool
  label := suite.label
  code := captured.exit.code?
  stdout := Text.trim (Text.decodeLossy captured.stdout)
  stderr := Text.trim (Text.decodeLossy captured.stderr)

/-- Both directories of a suite were made, and then its manifest was put in
place. -/
def Equipped
    (suite : Suite)
    (pipfile : Path)
    (transcript : List Exchange) : Prop :=
  ∃ target placing, (suite.seedManifest pipfile).Yields placing (.ok target) ∧
    spawns placing = [] ∧
    transcript = .made suite.context.workingDir (.ok ()) ::
      .made suite.context.cacheDir (.ok ()) :: placing

/-- How the seeding of a suite ends, by the first of its steps that fails. -/
inductive Seeds
    (suite : Suite)
    (pipfile : Path) : Except SeedFailure Unit -> List Exchange -> Prop
  /-- The working directory could not be made. -/
  | workingDir (cause : OsError) :
      Seeds suite pipfile
        (.error (.directory suite.context.workingDir cause))
        [.made suite.context.workingDir (.error cause)]
  /-- The directory of the cache could not be made. -/
  | cacheDir (cause : OsError) :
      Seeds suite pipfile
        (.error (.directory suite.context.cacheDir cause))
        [.made suite.context.workingDir (.ok ()),
          .made suite.context.cacheDir (.error cause)]
  /-- The manifest could not be put in place. -/
  | manifest
      {failure : SuiteFailure}
      {placing : List Exchange}
      (fails : (suite.seedManifest pipfile).Yields placing (.error failure))
      (startsNone : spawns placing = []) :
      Seeds suite pipfile (.error (.suite failure))
        (.made suite.context.workingDir (.ok ()) ::
          .made suite.context.cacheDir (.ok ()) :: placing)
  /-- The first lock could not be started. -/
  | start
      {early late : List Exchange}
      {cause : OsError}
      (equipped : suite.Equipped pipfile early)
      (starts : spawns late = [⟨suite.launch .lock, .error cause⟩]) :
      Seeds suite pipfile (.error (.start cause)) (early ++ late)
  /-- The first lock ended without success. -/
  | lock
      {early late : List Exchange}
      {captured : Captured}
      (equipped : suite.Equipped pipfile early)
      (starts : spawns late = [⟨suite.launch .lock, .ok captured.exit⟩])
      (unsuccessful : captured.exit ≠ .code 0) :
      Seeds suite pipfile (.error (.lock (suite.failedLock captured)))
        (early ++ late)
  /-- All steps succeeded. -/
  | success
      {early late : List Exchange}
      (equipped : suite.Equipped pipfile early)
      (starts : spawns late = [suite.firstLock]) :
      Seeds suite pipfile (.ok ()) (early ++ late)

theorem Equipped.spawns_eq
    (equipped : suite.Equipped pipfile transcript) : spawns transcript = [] := by
  obtain ⟨_, placing, _, startsNone, rfl⟩ := equipped
  simpa using startsNone

/-- A suite that was seeded has started its first lock, and nothing else. -/
theorem Seeds.spawns_eq
    (seeds : suite.Seeds pipfile (.ok ()) transcript) :
    spawns transcript = [suite.firstLock] := by
  cases seeds with
  | success equipped starts => rw [spawns_append, equipped.spawns_eq, starts]; rfl

/-- Seeding starts at most one process, which is the suite's first lock.  One
that failed did not start it with success. -/
theorem Seeds.spawns_of_error
    {failure : SeedFailure}
    (seeds : suite.Seeds pipfile (.error failure) transcript) :
    spawns transcript = [] ∨
      ∃ ended, ended ≠ .ok (.code 0) ∧
        spawns transcript = [⟨suite.launch .lock, ended⟩] := by
  cases seeds with
  | workingDir cause => exact .inl rfl
  | cacheDir cause => exact .inl rfl
  | manifest fails startsNone => exact .inl (by simpa using startsNone)
  | start equipped starts =>
      refine .inr ⟨_, ?_, by rw [spawns_append, equipped.spawns_eq, starts]; rfl⟩
      rintro ⟨⟩
  | lock equipped starts unsuccessful =>
      refine .inr ⟨_, ?_, by rw [spawns_append, equipped.spawns_eq, starts]; rfl⟩
      intro same
      exact unsuccessful (Except.ok.inj same)

/-- What follows the making of a directory is left out where it fails. -/
theorem made_of_yields
    {path : Path}
    {next : Unit -> ExceptT SeedFailure Action Unit}
    {result : Except SeedFailure Unit}
    (yields : (makeDir path >>= next).run.Yields transcript result) :
    (∃ cause, transcript = [.made path (.error cause)] ∧
      result = .error (.directory path cause)) ∨
    ∃ rest, (next ()).run.Yields rest result ∧
      transcript = .made path (.ok ()) :: rest := by
  rw [makeDir, bind_assoc] at yields
  obtain ⟨answer, _, rest, asked, answered, rfl⟩ :=
    yields_run_lift_bind_iff.mp yields
  obtain rfl := yields_request_iff.mp asked
  cases answer with
  | error cause =>
      obtain ⟨rfl, rfl⟩ := yields_run_throw_iff.mp answered
      exact .inl ⟨cause, rfl, rfl⟩
  | ok done => exact .inr ⟨rest, answered, rfl⟩

/-- The end of a first lock is judged by its exit, without any process. -/
theorem judged_of_yields
    {captured : Captured}
    {result : Except SeedFailure Unit}
    (yields : (suite.judgeLock journal captured).run.Yields transcript result) :
    spawns transcript = [] ∧
      result =
        if captured.exit = .code 0 then .ok ()
        else .error (.lock (suite.failedLock captured)) := by
  rw [judgeLock] at yields
  obtain ⟨_, rest, yields, spawns_eq⟩ :=
    IsQuiet.of_run_bind (startsOnly_note _ _) yields
  rw [spawns_eq]
  split at yields
  · rename_i succeeded
    rw [if_pos (by simpa using succeeded)]
    obtain ⟨_, noted, rfl⟩ := yields_run_lift_iff.mp yields
    exact ⟨IsQuiet.spawns_eq (startsOnly_note _ _) noted, rfl⟩
  · rename_i unsuccessful
    rw [if_neg (by simpa using unsuccessful)]
    obtain ⟨_, thrown, yields, spawns_eq⟩ :=
      IsQuiet.of_run_bind (startsOnly_note _ _) yields
    obtain ⟨rfl, rfl⟩ := yields_run_throw_iff.mp yields
    exact ⟨spawns_eq, rfl⟩

/-- A first lock starts one process, and it ends as that process does. -/
theorem locked_of_yields
    {result : Except SeedFailure Unit}
    (yields : (suite.initialLock journal).run.Yields transcript result) :
    (∃ cause, result = .error (.start cause) ∧
      spawns transcript = [⟨suite.launch .lock, .error cause⟩]) ∨
    ∃ captured,
      (result =
        if captured.exit = .code 0 then .ok ()
        else .error (.lock (suite.failedLock captured))) ∧
      spawns transcript = [⟨suite.launch .lock, .ok captured.exit⟩] := by
  rw [initialLock, launch?_seedCommand] at yields
  obtain ⟨_, rest, noted, spawns_eq⟩ :=
    IsQuiet.of_run_bind (startsOnly_note _ _) yields
  rw [spawns_eq]
  obtain ⟨answer, _, late, asked, answered, rfl⟩ :=
    yields_run_lift_bind_iff.mp noted
  obtain rfl := yields_request_iff.mp asked
  rw [spawns_append]
  cases answer with
  | error cause =>
      obtain ⟨_, thrown, reported, spawns_eq⟩ :=
        IsQuiet.of_run_bind (startsOnly_note _ _) answered
      obtain ⟨rfl, rfl⟩ := yields_run_throw_iff.mp reported
      rw [spawns_eq]
      exact .inl ⟨cause, rfl, rfl⟩
  | ok captured =>
      obtain ⟨startsNone, result_eq⟩ := judged_of_yields answered
      rw [startsNone]
      exact .inr ⟨captured, result_eq, rfl⟩

/-- Every transcript of a suite's seeding ends with the first step that
fails. -/
theorem seeds_of_yields
    {result : Except SeedFailure Unit}
    (yields : (suite.seed journal pipfile).run.Yields transcript result) :
    suite.Seeds pipfile result transcript := by
  rw [seed] at yields
  -- Every step is either the last one, or the rest follows its exchanges.
  obtain ⟨cause, rfl, rfl⟩ | ⟨_, afterWork, rfl⟩ := made_of_yields yields
  · exact .workingDir cause
  obtain ⟨cause, rfl, rfl⟩ | ⟨_, afterCache, rfl⟩ := made_of_yields afterWork
  · exact .cacheDir cause
  obtain ⟨answer, placing, late, placed, afterManifest, rfl⟩ :=
    yields_run_lift_bind_iff.mp afterCache
  have startsNone :=
    IsQuiet.spawns_eq (startsOnly_seedManifest suite pipfile) placed
  cases answer with
  | error failure =>
      obtain ⟨rfl, rfl⟩ := yields_run_throw_iff.mp afterManifest
      rw [List.append_nil]
      exact .manifest placed startsNone
  | ok target =>
      have equipped : suite.Equipped pipfile
          (.made suite.context.workingDir (.ok ()) ::
            .made suite.context.cacheDir (.ok ()) :: placing) :=
        ⟨target, placing, placed, startsNone, rfl⟩
      rw [← List.cons_append, ← List.cons_append]
      obtain ⟨cause, rfl, starts⟩ | ⟨captured, rfl, starts⟩ :=
        locked_of_yields afterManifest
      · exact .start equipped starts
      · split
        · rename_i succeeded
          rw [succeeded] at starts
          exact .success equipped starts
        · exact .lock equipped starts ‹_›

end Suite

/-! ## Seeding suites in order -/

namespace Session

variable {suites : List Suite} {journal : Journal} {pipfile : Path}

/-- Suites were seeded one after another, all of them with success. -/
inductive AllSeeded (pipfile : Path) : List Suite -> List Exchange -> Prop
  | nil : AllSeeded pipfile [] []
  | cons
      {suite : Suite}
      {rest : List Suite}
      {early late : List Exchange}
      (seeds : suite.Seeds pipfile (.ok ()) early)
      (others : AllSeeded pipfile rest late) :
      AllSeeded pipfile (suite :: rest) (early ++ late)

/-- How the seeding of suites ends: with all of them seeded, or with the first
one that fails. -/
inductive SeedsInOrder
    (pipfile : Path)
    (suites : List Suite) : Except Failure Unit -> List Exchange -> Prop
  | all
      {transcript : List Exchange}
      (seeded : AllSeeded pipfile suites transcript) :
      SeedsInOrder pipfile suites (.ok ()) transcript
  | stopped
      {early late : List Suite}
      {suite : Suite}
      {before attempt : List Exchange}
      {failure : SeedFailure}
      (split : suites = early ++ suite :: late)
      (seeded : AllSeeded pipfile early before)
      (fails : suite.Seeds pipfile (.error failure) attempt) :
      SeedsInOrder pipfile suites (.error (.ofSeed failure))
        (before ++ attempt)

/-- Suites that were seeded have started their first locks, in order, and
nothing else. -/
theorem AllSeeded.spawns_eq
    (seeded : AllSeeded pipfile suites transcript) :
    spawns transcript = suites.map Suite.firstLock := by
  induction seeded with
  | nil => rfl
  | cons seeds others inductionHypothesis =>
      rw [spawns_append, seeds.spawns_eq, inductionHypothesis]
      rfl

theorem SeedsInOrder.cons
    {suite : Suite}
    {rest : List Suite}
    {early late : List Exchange}
    {result : Except Failure Unit}
    (seeds : suite.Seeds pipfile (.ok ()) early)
    (others : SeedsInOrder pipfile rest result late) :
    SeedsInOrder pipfile (suite :: rest) result (early ++ late) := by
  cases others with
  | all seeded => exact .all (.cons seeds seeded)
  | stopped split seeded fails =>
      rw [← List.append_assoc]
      exact .stopped (by rw [split]; rfl) (.cons seeds seeded) fails

/-- A part of a task has the transcripts of its action. -/
theorem yields_attempt_iff
    {cause : ε -> Failure}
    {action : Action (Except ε α)}
    {result : Except Failure α} :
    (Attempt.lift cause action).run.Yields transcript result ↔
      ∃ given, action.Yields transcript given ∧
        result = given.mapError cause := by
  rw [Attempt.lift, ExceptT.run_mk, yields_bind_iff]
  constructor
  · rintro ⟨failure | value, early, late, first, second, rfl⟩
    all_goals
      obtain ⟨rfl, rfl⟩ := yields_pure_iff.mp second
      rw [List.append_nil]
      exact ⟨_, first, rfl⟩
  · rintro ⟨failure | value, first, rfl⟩
    all_goals
      exact ⟨_, transcript, [], first, .done _, (List.append_nil _).symm⟩

/-- Every transcript of the seeding of suites is that of the suites in order,
up to the first one that fails. -/
theorem seedsInOrder_of_yields
    {result : Except Failure Unit}
    (yields : (RunTask.seedAll journal pipfile suites).run.Yields transcript
      result) :
    SeedsInOrder pipfile suites result transcript := by
  induction suites generalizing transcript with
  | nil =>
      obtain ⟨rfl, rfl⟩ := yields_run_pure_iff.mp yields
      exact .all .nil
  | cons suite rest inductionHypothesis =>
      rw [RunTask.seedAll, yields_run_bind_iff] at yields
      simp only [yields_attempt_iff] at yields
      obtain ⟨failure, ⟨given, yields, failed⟩, rfl⟩ |
        ⟨_, early, late, ⟨given, first, succeeded⟩, yields, rfl⟩ := yields
      · cases given with
        | error cause =>
            cases failed
            exact .stopped (List.nil_append _).symm .nil
              (Suite.seeds_of_yields yields)
        | ok done => cases failed
      · cases given with
        | error cause => cases succeeded
        | ok done =>
            exact .cons (Suite.seeds_of_yields first)
              (inductionHypothesis yields)

end Session
end LockBench
