import LockBench.Proofs.Host.Requests
import LockBench.Proofs.Session.Launches
import LockBench.Task.Run

/-!
# What the parts of a session ask for

Notes, manifests, fixtures, timings and the closing report each ask for a few
kinds of requests only.  What these requests keep, carry on or leave out, the
parts do as well.
-/

namespace LockBench

open LockBench.Action

variable {journal : Journal} {asked : Request -> Prop}

/-! ## Notes -/

/-- What notes ask for: the time, a line in the log, and texts on the
console. -/
inductive Journal.Asks (journal : Journal) : Request -> Prop
  | clock : journal.Asks .clock
  | append
      {file : Path}
      (isFile : file ∈ journal.file)
      (content : ByteArray) : journal.Asks (.append file content)
  | print (text : String) : journal.Asks (.print text)
  | printError (text : String) : journal.Asks (.printError text)

theorem asksOnly_note
    (journal : Journal)
    (entry : Entry) : (journal.note entry).AsksOnly journal.Asks := by
  have records : ∀ text, (journal.record text).AsksOnly journal.Asks := by
    intro text
    rw [Journal.record]
    cases file_eq : journal.file with
    | none => exact asksOnly_pure _
    | some file =>
        exact (asksOnly_request .clock).bind fun _ =>
          (asksOnly_request (.append file_eq _)).bind fun _ => asksOnly_pure _
  have emits : ∀ (write : String -> Action Unit) (text : String),
      (write text).AsksOnly journal.Asks ->
        (Journal.emit write text).AsksOnly journal.Asks := by
    intro write text asks
    rw [Journal.emit]
    split
    · exact asksOnly_pure _
    · exact asks
  have displays : (journal.display entry).AsksOnly journal.Asks :=
    (emits _ _ (asksOnly_request (.print _))).bind fun _ =>
      emits _ _ (asksOnly_request (.printError _))
  rw [Journal.note]
  split
  · exact displays.bind fun _ => asksOnly_forM records
  · exact (asksOnly_forM records).bind fun _ => displays

/-! ## Seeding -/

/-- What putting a manifest in place asks for: the Pipfile is read, and written
as a project file, or it is copied. -/
inductive Suite.AsksForManifest
    (suite : Suite)
    (source : Path) : Request -> Prop
  | read : suite.AsksForManifest source (.read source)
  | write (content : ByteArray) :
      suite.AsksForManifest source
        (.write (suite.context.workingDir.join Project.fileName) content)
  | copy :
      suite.AsksForManifest source
        (.copy source (suite.context.workingDir.join Suite.manifestName))

theorem asksOnly_seedManifest
    (suite : Suite)
    (source : Path) :
    (suite.seedManifest source).AsksOnly (suite.AsksForManifest source) := by
  have reads : (Pipfile.readFrom source).AsksOnly
      (suite.AsksForManifest source) := by
    refine .bind (.bind (asksOnly_request .read) ?_) ?_
    · rintro (cause | content)
      · exact asksOnly_pure _
      · dsimp only
        split <;> exact asksOnly_pure _
    · rintro (cause | text) <;> exact asksOnly_pure _
  have translates : (Project.translate suite.project source).AsksOnly
      (suite.AsksForManifest source) := by
    refine reads.bind ?_
    rintro (failure | pipfile) <;> exact asksOnly_pure _
  rw [Suite.seedManifest]
  split
  · refine .bind (translates.bind ?_) ?_
    · rintro (failure | text)
      · exact asksOnly_pure _
      · refine .bind (asksOnly_request (.write _)) ?_
        rintro (cause | done) <;> exact asksOnly_pure _
    · rintro (failure | target) <;> exact asksOnly_pure _
  · refine .bind (asksOnly_request .copy) ?_
    rintro (cause | done) <;> exact asksOnly_pure _

/-- What seeding a suite asks for: its directories, its manifest, the process of
its first lock, and notes. -/
inductive Suite.AsksToSeed
    (suite : Suite)
    (journal : Journal)
    (source : Path) : Request -> Prop
  | note
      {request : Request}
      (noted : journal.Asks request) : suite.AsksToSeed journal source request
  | makeDirs
      {dir : Path}
      (isDir : dir = suite.context.workingDir ∨ dir = suite.context.cacheDir) :
      suite.AsksToSeed journal source (.makeDirs dir)
  | manifest
      {request : Request}
      (asked : suite.AsksForManifest source request) :
      suite.AsksToSeed journal source request
  | lock : suite.AsksToSeed journal source (.capture (suite.launch .lock))

theorem asksOnly_seed
    (suite : Suite)
    (journal : Journal)
    (source : Path) :
    (suite.seed journal source).run.AsksOnly
      (suite.AsksToSeed journal source) := by
  have notes : ∀ entry,
      (journal.note entry).AsksOnly (suite.AsksToSeed journal source) :=
    fun entry => (asksOnly_note journal entry).mono fun _ => .note
  have makes : ∀ dir,
      dir = suite.context.workingDir ∨ dir = suite.context.cacheDir ->
        (Suite.makeDir dir).run.AsksOnly (suite.AsksToSeed journal source) := by
    intro dir isDir
    refine .run_bind (.run_lift (asksOnly_request (.makeDirs isDir))) ?_
    rintro (cause | done) <;> exact asksOnly_pure _
  have judges : ∀ captured, (suite.judgeLock journal captured).run.AsksOnly
      (suite.AsksToSeed journal source) := by
    intro captured
    refine .run_bind (.run_lift (notes _)) fun _ => ?_
    split
    · exact .run_lift (notes _)
    · exact .run_bind (.run_lift (notes _)) fun _ => asksOnly_pure _
  have locks : (suite.initialLock journal).run.AsksOnly
      (suite.AsksToSeed journal source) := by
    refine .run_bind (.run_lift (notes _)) fun _ => ?_
    rw [Suite.launch?_seedCommand]
    refine .run_bind (.run_lift (asksOnly_request .lock)) ?_
    rintro (cause | captured)
    · exact .run_bind (.run_lift (notes _)) fun _ => asksOnly_pure _
    · exact judges captured
  refine .run_bind (makes _ (.inl rfl)) fun _ =>
    .run_bind (makes _ (.inr rfl)) fun _ =>
    .run_bind (.run_lift ((asksOnly_seedManifest suite source).mono
      fun _ => .manifest)) ?_
  rintro (failure | target)
  · exact asksOnly_pure _
  · exact locks

namespace RunTask

theorem asksOnly_attempt
    {asked : Request -> Prop}
    {cause : ε -> Failure}
    {action : Action (Except ε α)}
    (asks : action.AsksOnly asked) :
    (Attempt.lift cause action).run.AsksOnly asked := by
  refine asks.bind ?_
  rintro (failure | value) <;> exact asksOnly_pure _

/-- Seeding suites one after another asks for what seeding each of them asks
for. -/
theorem asksOnly_seedAll
    (journal : Journal)
    (pipfile : Path)
    (suites : List Suite) :
    (seedAll journal pipfile suites).run.AsksOnly fun request =>
      ∃ suite ∈ suites, suite.AsksToSeed journal pipfile request := by
  induction suites with
  | nil => exact asksOnly_pure _
  | cons suite rest inductionHypothesis =>
      refine .run_bind ((asksOnly_attempt
        (asksOnly_seed suite journal pipfile)).mono fun _ asked =>
          ⟨suite, List.mem_cons_self, asked⟩) fun _ =>
        inductionHypothesis.mono ?_
      rintro request ⟨other, member, asked⟩
      exact ⟨other, List.mem_cons_of_mem suite member, asked⟩

end RunTask

/-- What putting a fixture in place asks for: the directory of a bundled
fixture and its file. -/
inductive Fixture.Asks
    (sessionDir : Path)
    (fixture : Fixture) : Request -> Prop
  | makeDirs
      {bundled : Bundled}
      (isBundled : fixture = .bundled bundled) :
      Asks sessionDir fixture (.makeDirs (directory sessionDir bundled))
  | write
      {bundled : Bundled}
      (isBundled : fixture = .bundled bundled)
      (content : ByteArray) :
      Asks sessionDir fixture
        (.write ((directory sessionDir bundled).join pipfileName) content)

theorem asksOnly_materialize
    (sessionDir : Path)
    (fixture : Fixture) :
    (fixture.materialize sessionDir).AsksOnly
      (Fixture.Asks sessionDir fixture) := by
  cases fixture with
  | file path => exact asksOnly_pure _
  | bundled bundled =>
      refine .bind (asksOnly_request (.makeDirs rfl)) ?_
      rintro (cause | made)
      · exact asksOnly_pure _
      refine .bind (asksOnly_request (.write rfl _)) ?_
      rintro (cause | done) <;> exact asksOnly_pure _

namespace Session

/-! ## Timing -/

/-- What timing the operations of a session asks for: notes, the directory of
exported timings, and the timing program for the groups of the session. -/
inductive AsksToTime
    (journal : Journal)
    (harness : Harness)
    (suites : List Suite)
    (operations : List Operation) : Request -> Prop
  | note
      {request : Request}
      (noted : journal.Asks request) :
      AsksToTime journal harness suites operations request
  | makeDirs
      {dir : Path}
      (isDir : dir ∈ harness.options.exportDir) :
      AsksToTime journal harness suites operations (.makeDirs dir)
  | attend
      {operation : Operation}
      {group : Group}
      (isAsked : operation ∈ operations)
      (collected : Group.collect? suites operation = some group) :
      AsksToTime journal harness suites operations
        (.attend (harness.launch group))

variable {harness : Harness} {suites : List Suite}

/-- Timing more operations asks for what timing fewer of them asks for. -/
theorem AsksToTime.mono
    {operations more : List Operation}
    {request : Request}
    (asked : AsksToTime journal harness suites operations request)
    (among : ∀ operation ∈ operations, operation ∈ more) :
    AsksToTime journal harness suites more request := by
  cases asked with
  | note noted => exact .note noted
  | makeDirs isDir => exact .makeDirs isDir
  | attend isAsked collected => exact .attend (among _ isAsked) collected

theorem asksOnly_reportOutcome
    (journal : Journal)
    (operation : Operation)
    (outcome : Outcome) :
    (reportOutcome journal operation outcome).AsksOnly journal.Asks := by
  rw [reportOutcome]
  split
  · exact asksOnly_pure _
  · exact asksOnly_note _ _

theorem asksOnly_time
    {operation : Operation}
    {operations : List Operation}
    {group : Group}
    (isAsked : operation ∈ operations)
    (collected : Group.collect? suites operation = some group) :
    (harness.time journal group).AsksOnly
      (AsksToTime journal harness suites operations) := by
  have makes : harness.makeExportDir.AsksOnly
      (AsksToTime journal harness suites operations) := by
    rw [Harness.makeExportDir]
    cases dir_eq : harness.options.exportDir with
    | none => exact asksOnly_pure _
    | some dir =>
        refine .bind (asksOnly_request (.makeDirs dir_eq)) ?_
        rintro (cause | done) <;> exact asksOnly_pure _
  refine makes.bind ?_
  rintro (failure | done)
  · exact asksOnly_pure _
  refine ((asksOnly_note journal _).mono fun _ => .note).bind fun _ =>
    (asksOnly_request (.attend isAsked collected)).bind ?_
  rintro (cause | exit) <;> exact asksOnly_pure _

theorem asksOnly_timeGroups
    (journal : Journal)
    (harness : Harness)
    (suites : List Suite)
    (operations : List Operation) :
    (timeGroups journal (harness.time journal) suites operations).AsksOnly
      (AsksToTime journal harness suites operations) := by
  induction operations with
  | nil => exact asksOnly_pure _
  | cons operation rest inductionHypothesis =>
      have others := inductionHypothesis.mono fun _ asked =>
        asked.mono fun _ => List.mem_cons_of_mem operation
      rw [timeGroups]
      cases collected : Group.collect? suites operation with
      | none =>
          refine others.bind ?_
          rintro (failure | summary) <;> exact asksOnly_pure _
      | some group =>
          refine ((asksOnly_note journal _).mono fun _ => .note).bind fun _ =>
            (asksOnly_time List.mem_cons_self collected).bind ?_
          rintro (failure | outcome)
          · exact asksOnly_pure _
          refine ((asksOnly_reportOutcome journal operation outcome).mono
            fun _ => .note).bind fun _ => others.bind ?_
          rintro (failure | summary) <;> exact asksOnly_pure _

end Session

/-! ## The closing report -/

namespace RunTask

/-- What reporting the end of a session asks for: notes, and whether there are
timings to tell of. -/
inductive AsksToReport (journal : Journal) : Request -> Prop
  | note
      {request : Request}
      (noted : journal.Asks request) : AsksToReport journal request
  | kind (path : Path) : AsksToReport journal (.kind path)

theorem asksOnly_reportSummary
    (journal : Journal)
    (summary : Summary) :
    (reportSummary journal summary).AsksOnly (AsksToReport journal) := by
  have notes : ∀ entry,
      (journal.note entry).AsksOnly (AsksToReport journal) :=
    fun entry => (asksOnly_note journal entry).mono fun _ => .note
  have announces : ∀ outcome,
      (announceExport journal outcome).AsksOnly (AsksToReport journal) := by
    intro outcome
    rw [announceExport]
    split
    · exact asksOnly_pure _
    · refine .bind (.bind (asksOnly_request (.kind _)) fun _ =>
        asksOnly_pure _) fun isThere => ?_
      split
      · exact notes _
      · exact asksOnly_pure _
  exact (asksOnly_forM fun _ => notes _).bind fun _ =>
    (asksOnly_forM announces).bind fun _ => notes _

end RunTask
end LockBench
