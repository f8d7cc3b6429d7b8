import LockBench.Proofs.Session.Continuity
import LockBench.Proofs.Session.Loading
import LockBench.Task.Report

/-!
# Timings that are exported and loaded

The timing program writes the timings of an operation to a file of the
operation's name in the directory of timings.  A later run replaces them, and
nothing else that a session does touches files of timings.  So what is loaded
from the directory afterwards is what the last run of each operation wrote.
-/

namespace LockBench

namespace Operation

/-- The name of the file of an operation's timings. -/
def exportName (operation : Operation) : String :=
  operation.name ++ ".json"

theorem isName_exportName (operation : Operation) :
    Path.IsName operation.exportName :=
  (Session.isName_exportName operation).1

theorem exportName_injective
    {operation other : Operation}
    (same : operation.exportName = other.exportName) : operation = other := by
  cases operation <;> cases other <;>
    first | rfl | exact absurd same (by decide)

theorem extension?_exportName
    (dir : Path)
    (operation : Operation) :
    (dir.join operation.exportName).extension? = some "json" := by
  rw [Path.extension?, Path.fileName?_join dir operation.isName_exportName]
  cases operation <;> decide

theorem stem?_exportName
    (dir : Path)
    (operation : Operation) :
    (dir.join operation.exportName).stem? = some operation.name := by
  rw [Path.stem?, Path.fileName?_join dir operation.isName_exportName]
  cases operation <;> decide

end Operation

/-- The end of a run of the timing program, with the files that it leaves. -/
structure Finished where
  /-- The process. -/
  launch : Launch
  /-- The files after it. -/
  tree : FileTree

namespace Finished

/-- What is observed of a request. -/
def shown :
    (request : Request) -> request.Answer -> FileTree -> List Finished
  | .attend launch, _, last => [⟨launch, last⟩]
  | _, _, _ => []

/-- The files after the last run of a process. -/
def last?
    (finished : List Finished)
    (launch : Launch) : Option FileTree :=
  (finished.reverse.find? (·.launch = launch)).map Finished.tree

theorem last?_concat
    (finished : List Finished)
    (run : Finished)
    (launch : Launch) :
    last? (finished ++ [run]) launch =
      if run.launch = launch then some run.tree
      else last? finished launch := by
  rw [last?, List.reverse_concat, List.find?_cons]
  by_cases same : run.launch = launch
  · simp [same]
  · simp [same, last?]

/-- A process that was run has a last run. -/
theorem exists_last?
    {finished : List Finished}
    {launch : Launch}
    (ran : ∃ run ∈ finished, run.launch = launch) :
    ∃ after, last? finished launch = some after := by
  rw [← Option.isSome_iff_exists]
  simpa [last?] using ran

end Finished

namespace Harness

/-- A process that exports timings tells the operation that it times. -/
theorem launch_injective
    {harness : Harness}
    {dir : Path}
    (isDir : harness.options.exportDir = some dir)
    {group other : Group}
    (same : harness.launch group = harness.launch other) :
    group.operation = other.operation := by
  have arguments_eq := congrArg Launch.arguments same
  simp only [launch, arguments, optionArguments, exportPath?, isDir,
    Option.map_some, List.append_assoc, List.append_cancel_left_eq,
    List.cons_append, List.cons.injEq, true_and] at arguments_eq
  exact Operation.exportName_injective (Path.join_injective dir
    group.operation.isName_exportName other.operation.isName_exportName
    (congrArg Path.mk arguments_eq.1))

end Harness

namespace Session

/-! ## Changes that spare timings -/

/-- The directory of timings stays, and so do the files of timings in it, other
than some. -/
structure Spares
    (workingDir : Location)
    (dir : Path)
    (excepted : String -> Prop)
    (tree after : FileTree) : Prop where
  /-- The directory and those on its way stay. -/
  stays : ∀ location ∈ dir.trail workingDir,
    tree.get? location = some .directory ->
      after.get? location = some .directory
  /-- No file of timings comes, changes or goes. -/
  files : ∀ name, Path.IsName name ->
    (dir.join name).extension? = some "json" -> ¬excepted name ->
      ∀ content executable,
        after.get? (dir.locationFrom workingDir ++ [name]) =
            some (.file content executable) ↔
          tree.get? (dir.locationFrom workingDir ++ [name]) =
            some (.file content executable)

section Spares

variable {workingDir : Location} {dir : Path} {tree after : FileTree}
  {excepted : String -> Prop} {name : String} {entries : List Timing}

/-- Timings that are spared can still be read. -/
theorem Spares.holdsTimings
    (spares : Spares workingDir dir excepted tree after)
    (isName : Path.IsName name)
    (isExport : (dir.join name).extension? = some "json")
    (spared : ¬excepted name)
    (holds : tree.HoldsTimings workingDir (dir.join name) entries) :
    after.HoldsTimings workingDir (dir.join name) entries := by
  obtain ⟨place, text, executable, leads, read⟩ := holds
  have place_eq : place = dir.locationFrom workingDir ++ [name] := by
    rw [← Path.locationFrom_join workingDir dir isName]
    exact leads.place_eq
  refine ⟨place, text, executable, { leads with passes := ?_, present := ?_ },
    read⟩
  · intro earlier leftBehind
    have onTrail := leftBehind
    rw [Path.passed_join workingDir dir isName] at onTrail
    exact spares.stays earlier onTrail (leads.passes earlier leftBehind)
  · have present := leads.present
    rw [place_eq] at present ⊢
    exact (spares.files name isName isExport spared _ _).mpr present

/-- What changes single files and makes directories spares timings in other
files. -/
theorem spares_of_changes
    {scope : Scope}
    (changes : tree.ChangesWithin scope after)
    (notFree : ∀ location, ¬scope.free location)
    (notFile : ∀ name, Path.IsName name ->
      (dir.join name).extension? = some "json" -> ¬excepted name ->
        ¬scope.files (dir.locationFrom workingDir ++ [name])) :
    Spares workingDir dir excepted tree after := by
  refine ⟨fun location _ => changes.stays location (notFree location), ?_⟩
  intro name isName isExport spared content executable
  by_cases same : after.get? (dir.locationFrom workingDir ++ [name]) =
      tree.get? (dir.locationFrom workingDir ++ [name])
  · rw [same]
  · obtain ⟨_, nothing, made⟩ :=
      ((changes.inside _ same).resolve_left (notFree _)).resolve_left
        (notFile name isName isExport spared)
    simp [nothing, made]

end Spares

/-! ## What is exported -/

/-- What is relied on of the timing program: it can be started, and it leaves
the directory of timings and all timings of other operations in it alone. -/
structure Exporting
    (workingDir : Location)
    (process : Launch -> FileTree -> Except OsError Exit -> FileTree -> Prop)
    (harness : Harness)
    (dir : Path)
    (suites : List Suite) : Prop where
  /-- A process for a group can be started. -/
  starts : ∀ operation group, Group.collect? suites operation = some group ->
    ∀ tree exit last, process (harness.launch group) tree exit last ->
      ∃ code, exit = .ok code
  /-- It leaves all but its own timings alone. -/
  spares : ∀ operation group, Group.collect? suites operation = some group ->
    ∀ tree exit last, process (harness.launch group) tree exit last ->
      Spares workingDir dir (· = operation.exportName) tree last

/-- A run left timings where it was told to. -/
def Wrote
    (workingDir : Location)
    (harness : Harness)
    (dir : Path)
    (suites : List Suite)
    (run : Finished) : Prop :=
  ∀ operation group, Group.collect? suites operation = some group ->
    run.launch = harness.launch group -> ∃ entries,
      run.tree.HoldsTimings workingDir (dir.join operation.exportName) entries

/-- No file of timings is in a directory. -/
def NoTimings
    (workingDir : Location)
    (dir : Path)
    (tree : FileTree) : Prop :=
  ∀ name, Path.IsName name -> (dir.join name).extension? = some "json" ->
    ∀ content executable,
      tree.get? (dir.locationFrom workingDir ++ [name]) ≠
        some (.file content executable)

/-- The files of timings are those of the operations that were timed so far,
and each of them holds what was there after the last run of its operation. -/
structure Exported
    (workingDir : Location)
    (harness : Harness)
    (dir : Path)
    (suites : List Suite)
    (operations : List Operation)
    (finished : List Finished)
    (tree : FileTree) : Prop where
  /-- Only groups of the operations were timed. -/
  asked : ∀ run ∈ finished, ∃ operation ∈ operations, ∃ group,
    Group.collect? suites operation = some group ∧
      run.launch = harness.launch group
  /-- A file of timings is that of an operation that was timed. -/
  known : ∀ name, Path.IsName name ->
    (dir.join name).extension? = some "json" -> ∀ content executable,
      tree.get? (dir.locationFrom workingDir ++ [name]) =
          some (.file content executable) ->
        ∃ operation ∈ operations, ∃ group,
          Group.collect? suites operation = some group ∧
            name = operation.exportName ∧
            Finished.last? finished (harness.launch group) ≠ none
  /-- Timings are still as the last run left them. -/
  holds : ∀ operation group, Group.collect? suites operation = some group ->
    ∀ after, Finished.last? finished (harness.launch group) = some after ->
      ∃ entries,
        after.HoldsTimings workingDir (dir.join operation.exportName) entries ∧
          tree.HoldsTimings workingDir (dir.join operation.exportName) entries

/-- As long as every run leaves its timings, they are exported. -/
def ExportedIfWritten
    (workingDir : Location)
    (harness : Harness)
    (dir : Path)
    (suites : List Suite)
    (operations : List Operation)
    (finished : List Finished)
    (tree : FileTree) : Prop :=
  (∀ run ∈ finished, Wrote workingDir harness dir suites run) ->
    Exported workingDir harness dir suites operations finished tree

section Exported

variable {workingDir : Location}
  {process : Launch -> FileTree -> Except OsError Exit -> FileTree -> Prop}
  {harness : Harness} {dir : Path} {suites : List Suite}
  {operations : List Operation} {finished : List Finished}
  {start tree after : FileTree} {journal : Journal}

/-- What spares the timings keeps them exported. -/
theorem Exported.of_spares
    (exported : Exported workingDir harness dir suites operations finished tree)
    (spares : Spares workingDir dir (fun _ => False) tree after) :
    Exported workingDir harness dir suites operations finished after where
  asked := exported.asked
  known name isName isExport content executable isFile :=
    exported.known name isName isExport content executable
      ((spares.files name isName isExport id _ _).mp isFile)
  holds operation group collected last isLast := by
    obtain ⟨entries, holdsLast, holdsTree⟩ :=
      exported.holds operation group collected last isLast
    exact ⟨entries, holdsLast, spares.holdsTimings operation.isName_exportName
      (operation.extension?_exportName dir) id holdsTree⟩

/-- Timing a group exports its timings, and keeps all others exported. -/
theorem Exported.of_times
    (isDir : harness.options.exportDir = some dir)
    (exported : Exported workingDir harness dir suites operations finished tree)
    {operation : Operation}
    {group : Group}
    (isAsked : operation ∈ operations)
    (collected : Group.collect? suites operation = some group)
    {entries : List Timing}
    (writes : after.HoldsTimings workingDir (dir.join operation.exportName)
      entries)
    (spares : Spares workingDir dir (· = operation.exportName) tree after) :
    Exported workingDir harness dir suites operations
      (finished ++ [⟨harness.launch group, after⟩]) after where
  asked run member := by
    rcases List.mem_append.mp member with before | isRun
    · exact exported.asked run before
    · rw [List.mem_singleton.mp isRun]
      exact ⟨operation, isAsked, group, collected, rfl⟩
  known name isName isExport content executable isFile := by
    by_cases isWritten : name = operation.exportName
    · refine ⟨operation, isAsked, group, collected, isWritten, ?_⟩
      rw [Finished.last?_concat, if_pos rfl]
      exact Option.some_ne_none after
    · have wasFile :=
        (spares.files name isName isExport isWritten _ _).mp isFile
      obtain ⟨other, wasAsked, otherGroup, otherCollected, rfl, wasTimed⟩ :=
        exported.known name isName isExport _ _ wasFile
      refine ⟨other, wasAsked, otherGroup, otherCollected, rfl, ?_⟩
      rw [Finished.last?_concat]
      split
      · exact Option.some_ne_none after
      · exact wasTimed
  holds other otherGroup otherCollected last isLast := by
    rw [Finished.last?_concat] at isLast
    split at isLast
    · -- The last run was of the same process, so of the same operation.
      rename_i same
      obtain rfl := Option.some.inj isLast
      obtain ⟨group_eq, _⟩ := (Group.collect?_eq_some_iff _ _ _).mp collected
      obtain ⟨otherGroup_eq, _⟩ :=
        (Group.collect?_eq_some_iff _ _ _).mp otherCollected
      have operation_eq := Harness.launch_injective isDir same
      rw [group_eq, otherGroup_eq] at operation_eq
      obtain rfl : operation = other := operation_eq
      exact ⟨entries, writes, writes⟩
    · rename_i different
      obtain ⟨otherEntries, holdsLast, holdsTree⟩ :=
        exported.holds other otherGroup otherCollected last isLast
      refine ⟨otherEntries, holdsLast, spares.holdsTimings
        other.isName_exportName (other.extension?_exportName dir) ?_ holdsTree⟩
      intro sameName
      obtain rfl := Operation.exportName_injective sameName
      rw [collected, Option.some.injEq] at otherCollected
      exact different (by rw [otherCollected])

/-! ## Timing exports -/

/-- What is observed where the timing program ends. -/
def exportScene
    (workingDir : Location)
    (process : Launch -> FileTree -> Except OsError Exit -> FileTree -> Prop) :
    Scene Finished :=
  ⟨workingDir, process, Finished.shown⟩

/-- A plain request of which nothing is observed keeps timings exported, if it
writes to no file of timings. -/
theorem carries_exported_of_plain
    {request : Request}
    (plain : request.IsPlain)
    (notFree : ∀ location, ¬(request.scope workingDir).free location)
    (notFile : ∀ name, Path.IsName name ->
      (dir.join name).extension? = some "json" ->
        ¬(request.scope workingDir).files
          (dir.locationFrom workingDir ++ [name])) :
    Action.Carries (exportScene workingDir process).world
      (ExportedIfWritten workingDir harness dir suites operations)
      (Action.request request) := by
  intro tree answer moments last runs seen exported
  obtain ⟨allows, rfl⟩ := Action.world_of_runs runs
  have unseen : (exportScene workingDir process).shows request answer last =
      [] := by
    cases request with
    | attend launch => exact plain.elim
    | _ => rfl
  rw [unseen, List.append_nil]
  exact fun wrote => (exported wrote).of_spares (spares_of_changes
    (Scene.changesWithin_of_allows plain allows) notFree
    fun name isName isExport _ => notFile name isName isExport)

/-- The log is no file of timings. -/
theorem not_logsAt_export
    (isLog : NamedLog journal)
    {name : String}
    (isName : Path.IsName name)
    (isExport : (dir.join name).extension? = some "json") :
    ¬journal.LogsAt workingDir (dir.locationFrom workingDir ++ [name]) := by
  rintro ⟨file, isFile, location_eq⟩
  obtain ⟨logDir, rfl⟩ := isLog file isFile
  have isLogName : Path.IsName Journal.fileName := by decide
  rw [Path.locationFrom_join workingDir logDir isLogName] at location_eq
  obtain ⟨_, name_eq⟩ := List.append_inj' location_eq rfl
  obtain rfl : name = Journal.fileName := by simpa using name_eq
  rw [Path.extension?, Path.fileName?_join dir isLogName] at isExport
  exact absurd isExport (by decide)

theorem carries_exported_of_note
    (isLog : NamedLog journal)
    {request : Request}
    (noted : journal.Asks request) :
    Action.Carries (exportScene workingDir process).world
      (ExportedIfWritten workingDir harness dir suites operations)
      (Action.request request) := by
  obtain ⟨plain, within⟩ := noted.scope_le workingDir
  refine carries_exported_of_plain plain within.free ?_
  intro name isName isExport isWritten
  exact (within.files _ isWritten).elim id
    (not_logsAt_export isLog isName isExport)

/-- What is asked for to time operations keeps their timings exported. -/
theorem carries_exported
    (isDir : harness.options.exportDir = some dir)
    (isLog : NamedLog journal)
    (exports : Exporting workingDir process harness dir suites)
    {action : Action α}
    (asks : action.AsksOnly (AsksToTime journal harness suites operations)) :
    Action.Carries (exportScene workingDir process).world
      (ExportedIfWritten workingDir harness dir suites operations) action := by
  refine asks.carries fun request asked => ?_
  cases asked with
  | note noted => exact carries_exported_of_note isLog noted
  | makeDirs _ =>
      exact carries_exported_of_plain trivial (fun _ => id) fun _ _ _ => id
  | attend isAsked collected =>
      intro tree answer moments last runs seen exported
      obtain ⟨allows, rfl⟩ := Action.world_of_runs runs
      intro wrote
      obtain ⟨wroteBefore, wroteNow⟩ := List.forall_mem_append.mp wrote
      obtain ⟨entries, writes⟩ :=
        wroteNow _ (List.mem_singleton.mpr rfl) _ _ collected rfl
      exact (exported wroteBefore).of_times isDir isAsked collected writes
        (exports.spares _ _ collected _ _ _ allows)

/-! ## Every operation that is supported is timed -/

/-- What was timed is exported. -/
theorem Exported.isExport
    (exported : Exported workingDir harness dir suites operations finished tree)
    {operation : Operation}
    {group : Group}
    (collected : Group.collect? suites operation = some group)
    (timed : ∃ run ∈ finished, run.launch = harness.launch group) :
    tree.IsExport workingDir dir operation.exportName := by
  obtain ⟨after, isLast⟩ := Finished.exists_last? timed
  obtain ⟨entries, _, holds⟩ :=
    exported.holds operation group collected after isLast
  exact ⟨holds.holdsFile, operation.extension?_exportName dir⟩

/-- Once an operation was timed, the directory of timings is there. -/
theorem Exported.leads
    (named : dir.text ≠ "")
    (exported : Exported workingDir harness dir suites operations finished tree)
    (someRun : finished ≠ []) :
    tree.Leads workingDir dir (dir.locationFrom workingDir) .directory := by
  obtain ⟨run, member⟩ := List.exists_mem_of_ne_nil finished someRun
  obtain ⟨operation, _, group, collected, isRun⟩ := exported.asked run member
  obtain ⟨⟨_, _, _, leads⟩, _⟩ :=
    exported.isExport collected ⟨run, member, isRun⟩
  exact FileTree.leads_of_leads_join named operation.isName_exportName leads

/-- The directory of timings could not be made, and nothing but the log had
changed until then. -/
def Stuck
    (workingDir : Location)
    (journal : Journal)
    (dir : Path)
    (start : FileTree)
    (failure : HarnessFailure) : Prop :=
  ∃ cause left, failure = .resultsDir dir cause ∧
    start.ChangesWithin { files := journal.LogsAt workingDir } left ∧
    left.makeDirs workingDir dir = .error cause

/-- What becomes of timing: either the groups are timed, or the directory of
timings cannot be made, and then nothing was timed at all. -/
def TimedOrStuck
    (workingDir : Location)
    (journal : Journal)
    (harness : Harness)
    (dir : Path)
    (start : FileTree)
    (groups : List Group)
    (finished : List Finished) : Except HarnessFailure α -> Prop
  | .error failure => finished = [] ∧ Stuck workingDir journal dir start failure
  | .ok _ =>
    ∀ group ∈ groups, ∃ run ∈ finished, run.launch = harness.launch group

/-- What becomes of timing is told by whether there is a failure. -/
theorem TimedOrStuck.map
    {groups : List Group}
    {result : Except HarnessFailure α}
    (timed : TimedOrStuck workingDir journal harness dir start groups finished
      result)
    (read : α -> β) :
    TimedOrStuck workingDir journal harness dir start groups finished
      (result.map read) := by
  cases result <;> exact timed

/-- With a group that was timed, one more group is timed. -/
theorem TimedOrStuck.cons
    {group : Group}
    {groups : List Group}
    {result : Except HarnessFailure α}
    (timed : TimedOrStuck workingDir journal harness dir start groups finished
      result)
    (isTimed : ∃ run ∈ finished, run.launch = harness.launch group) :
    TimedOrStuck workingDir journal harness dir start (group :: groups) finished
      result := by
  cases result with
  | error failure => exact timed
  | ok value => exact List.forall_mem_cons.mpr ⟨isTimed, timed⟩

/-- Notes change no more than the log. -/
theorem changesWithin_of_notes
    {action : Action α}
    (asks : action.AsksOnly journal.Asks)
    {result : α}
    {moments : List Finished}
    (runs : action.Runs (exportScene workingDir process).world tree result
      moments after) :
    tree.ChangesWithin { files := journal.LogsAt workingDir } after := by
  have carries : Action.Carries (exportScene workingDir process).world
      (fun _ => tree.ChangesWithin { files := journal.LogsAt workingDir })
      action := by
    refine asks.carries fun request noted => ?_
    intro middle answer moments last runs _ changes
    obtain ⟨plain, within⟩ := noted.scope_le workingDir
    obtain ⟨allows, _⟩ := Action.world_of_runs runs
    exact changes.trans ((Scene.changesWithin_of_allows plain allows).mono
      within)
  exact carries _ _ _ _ runs [] .rfl

/-- A group is timed, unless the directory of timings cannot be made. -/
theorem timed_of_time
    (isDir : harness.options.exportDir = some dir)
    (named : dir.text ≠ "")
    {group : Group}
    (starts : ∀ tree exit last, process (harness.launch group) tree exit last ->
      ∃ code, exit = .ok code)
    (exported : Exported workingDir harness dir suites operations finished tree)
    (untouched : finished = [] ->
      start.ChangesWithin { files := journal.LogsAt workingDir } tree)
    {result : Except HarnessFailure Outcome}
    {moments : List Finished}
    (runs : (harness.time journal group).Runs
      (exportScene workingDir process).world tree result moments after) :
    TimedOrStuck workingDir journal harness dir start [group]
      (finished ++ moments) result := by
  rw [Harness.time, Harness.makeExportDir, isDir] at runs
  obtain ⟨made, _, _, _, runsMake, runsOn, rfl⟩ := Action.runs_bind runs
  obtain ⟨answer, _, _, _, runsDirs, returned, rfl⟩ := Action.runs_bind runsMake
  obtain ⟨allows, rfl⟩ := Action.world_of_runs runsDirs
  cases answer with
  | error cause =>
      cases returned
      cases runsOn
      have failed : tree.makeDirs workingDir dir = .error cause :=
        FileTree.makeDirs_of_attemptDirs allows
      have noRun : finished = [] := by
        -- After any run the directory is there, and then making it succeeds.
        apply Classical.byContradiction
        intro someRun
        rw [FileTree.makeDirs_of_leads (exported.leads named someRun)] at failed
        cases failed
      exact ⟨by simp [noRun, exportScene, Finished.shown], cause, tree, rfl,
        untouched noRun, failed⟩
  | ok done =>
      cases returned
      obtain ⟨_, _, _, _, _, runsRest, rfl⟩ := Action.runs_bind runsOn
      obtain ⟨exit, _, _, _, runsAttend, ended, rfl⟩ :=
        Action.runs_bind runsRest
      obtain ⟨allows, rfl⟩ := Action.world_of_runs runsAttend
      obtain ⟨code, rfl⟩ := starts _ _ _ allows
      cases ended
      rw [TimedOrStuck, List.forall_mem_singleton]
      exact ⟨⟨harness.launch group, after⟩,
        by simp [exportScene, Finished.shown], rfl⟩

/-- Every operation that some suite supports is timed, unless the directory of
timings cannot be made. -/
theorem timed_of_timeGroups
    (isDir : harness.options.exportDir = some dir)
    (named : dir.text ≠ "")
    (isLog : NamedLog journal)
    (exports : Exporting workingDir process harness dir suites)
    (exported : ExportedIfWritten workingDir harness dir suites operations
      finished tree)
    (untouched : finished = [] ->
      start.ChangesWithin { files := journal.LogsAt workingDir } tree)
    {chosen : List Operation}
    (among : ∀ operation ∈ chosen, operation ∈ operations)
    {result : Except HarnessFailure Summary}
    {moments : List Finished}
    (runs : (timeGroups journal (harness.time journal) suites chosen).Runs
      (exportScene workingDir process).world tree result moments after)
    (wrote : ∀ run ∈ finished ++ moments,
      Wrote workingDir harness dir suites run) :
    TimedOrStuck workingDir journal harness dir start
      (chosen.filterMap (Group.collect? suites)) (finished ++ moments)
      result := by
  have notes : ∀ {action : Action Unit}, action.AsksOnly journal.Asks ->
      Action.Carries (exportScene workingDir process).world
        (ExportedIfWritten workingDir harness dir suites operations) action :=
    fun asks => carries_exported isDir isLog exports
      (asks.mono fun _ => .note)
  induction chosen generalizing tree after result finished moments with
  | nil =>
      cases runs
      exact nofun
  | cons operation rest inductionHypothesis =>
      rw [List.forall_mem_cons] at among
      obtain ⟨isAsked, amongRest⟩ := among
      cases collected : Group.collect? suites operation with
      | none =>
          rw [List.filterMap_cons_none collected]
          obtain ⟨value, runsRest, rfl⟩ := runs_timeGroups_skip collected runs
          exact (inductionHypothesis exported untouched amongRest runsRest
            wrote).map _
      | some group =>
          rw [List.filterMap_cons_some collected]
          obtain ⟨given, early, middle, shown, next, late, runsBanner,
            runsGroup, rfl, runsOn⟩ := runs_timeGroups_submit collected runs
          rw [← List.append_assoc, ← List.append_assoc] at wrote ⊢
          obtain ⟨wroteGroup, _⟩ := List.forall_mem_append.mp wrote
          have exportedThen := notes (asksOnly_note journal _) _ _ _ _
            runsBanner _ exported
          have timed := timed_of_time isDir named
            (exports.starts operation group collected)
            (exportedThen (List.forall_mem_append.mp wroteGroup).1)
            (fun noRun => (untouched (List.append_eq_nil_iff.mp noRun).1).trans
              (changesWithin_of_notes (asksOnly_note journal _) runsBanner))
            runsGroup
          rcases given with failure | outcome
          · obtain ⟨rfl, rfl, _⟩ := runsOn
            simpa [TimedOrStuck] using timed
          -- What is exported is carried past the group, so that a directory
          -- that cannot be made later on still contradicts this run.
          obtain ⟨value, told, _, others, runsReport, runsRest, rfl, rfl⟩ :=
            runsOn
          have exportedNext := carries_exported isDir isLog exports
            (asksOnly_time isAsked collected) _ _ _ _ runsGroup _ exportedThen
          have exportedLast := notes (asksOnly_reportOutcome journal operation
            outcome) _ _ _ _ runsReport _ exportedNext
          obtain ⟨run, wasRun, isRun⟩ :=
            timed group (List.mem_singleton.mpr rfl)
          have someRun : finished ++ early ++ shown ++ told ≠ [] := fun noRun =>
            List.ne_nil_of_mem wasRun (List.append_eq_nil_iff.mp noRun).1
          rw [← List.append_assoc] at wrote ⊢
          have timedRest := inductionHypothesis exportedLast
            (absurd · someRun) amongRest runsRest wrote
          exact (timedRest.cons ⟨run, List.mem_append_left _
            (List.mem_append_left _ wasRun), isRun⟩).map _

/-! ## What the report shows -/

/-- A table tells what the last run for an operation left. -/
structure TellsLast
    (workingDir : Location)
    (harness : Harness)
    (dir : Path)
    (suites : List Suite)
    (finished : List Finished)
    (operation : Operation)
    (table : TimingTable) : Prop where
  /-- It has the operation's name. -/
  operation_eq : table.operation = operation.name
  /-- Its entries are those of the last document for the operation, which was
  not skipped. -/
  entries : ∃ group, Group.collect? suites operation = some group ∧
    ∃ after, Finished.last? finished (harness.launch group) = some after ∧
      after.HoldsTimings workingDir (dir.join operation.exportName)
        table.entries

/-- Tables show exactly what was exported. -/
structure Shows
    (workingDir : Location)
    (harness : Harness)
    (dir : Path)
    (suites : List Suite)
    (operations : List Operation)
    (finished : List Finished)
    (tables : List TimingTable) : Prop where
  /-- They are in order of the names of their files, without repetition. -/
  ascending : (tables.map (·.operation ++ ".json")).Pairwise (· < ·)
  /-- Each of them is of an operation that was timed. -/
  sound : ∀ table ∈ tables, ∃ operation ∈ operations,
    TellsLast workingDir harness dir suites finished operation table
  /-- Each operation that some suite supports has one. -/
  complete : ∀ operation ∈ operations,
    (Group.collect? suites operation).isSome = true ->
      ∃ table ∈ tables, table.operation = operation.name

/-- At first nothing is exported. -/
theorem exported_of_noTimings
    (clean : NoTimings workingDir dir tree) :
    Exported workingDir harness dir suites operations [] tree where
  asked := nofun
  known name isName isExport content executable isFile :=
    absurd isFile (clean name isName isExport content executable)
  holds := nofun

/-- A file of timings is what the last run of its operation left. -/
theorem Exported.last_of_isExport
    (exported : Exported workingDir harness dir suites operations finished tree)
    {name : String}
    (isName : Path.IsName name)
    (isExport : tree.IsExport workingDir dir name) :
    ∃ operation ∈ operations, name = operation.exportName ∧
      ∃ group, Group.collect? suites operation = some group ∧
        ∃ after, Finished.last? finished (harness.launch group) = some after ∧
          ∃ entries,
            after.HoldsTimings workingDir (dir.join operation.exportName)
                entries ∧
              tree.HoldsTimings workingDir (dir.join operation.exportName)
                entries := by
  obtain ⟨⟨place, content, executable, leads⟩, extension_eq⟩ := isExport
  have isFile := leads.present
  rw [leads.place_eq] at isFile
  change tree.get? ((dir.join name).locationFrom workingDir) = _ at isFile
  rw [Path.locationFrom_join workingDir dir isName] at isFile
  obtain ⟨operation, isAsked, group, collected, name_eq, wasTimed⟩ :=
    exported.known name isName extension_eq _ _ isFile
  obtain ⟨after, isLast⟩ := Option.ne_none_iff_exists'.mp wasTimed
  exact ⟨operation, isAsked, name_eq, group, collected, after, isLast,
    exported.holds operation group collected after isLast⟩

/-- What is loaded for a file of timings tells what the last run of its
operation left. -/
theorem Exported.tells
    (exported : Exported workingDir harness dir suites operations finished tree)
    {name : String}
    {table : TimingTable}
    (isName : Path.IsName name)
    (isExport : tree.IsExport workingDir dir name)
    (tabulates : Report.Tabulates tree workingDir dir name table) :
    name = table.operation ++ ".json" ∧ ∃ operation ∈ operations,
      TellsLast workingDir harness dir suites finished operation table := by
  obtain ⟨operation, isAsked, rfl, group, collected, after, isLast, entries,
    holdsLast, holds⟩ := exported.last_of_isExport isName isExport
  obtain ⟨operation_eq, holdsTable⟩ := tabulates
  rw [operation.stem?_exportName, Option.getD_some] at operation_eq
  rw [holds.unique holdsTable] at holdsLast
  exact ⟨by rw [operation_eq, Operation.exportName], operation, isAsked,
    operation_eq, group, collected, after, isLast, holdsLast⟩

/-- The tables of all files of timings show what was exported. -/
theorem Exported.shows
    (exported : Exported workingDir harness dir suites operations finished tree)
    (isExport : ∀ operation ∈ operations,
      (Group.collect? suites operation).isSome = true ->
        tree.IsExport workingDir dir operation.exportName)
    {names : List String}
    {tables : List TimingTable}
    (ascending : names.Pairwise (· < ·))
    (names_iff : ∀ name, name ∈ names ↔
      Path.IsName name ∧ tree.IsExport workingDir dir name)
    (tabulated : List.Forall₂ (Report.Tabulates tree workingDir dir) names
      tables) :
    Shows workingDir harness dir suites operations finished tables := by
  have told : List.Forall₂ (fun name table =>
      name = table.operation ++ ".json" ∧ ∃ operation ∈ operations,
        TellsLast workingDir harness dir suites finished operation table)
      names tables := by
    refine ((List.forall₂_and_left names tables).mpr
      ⟨fun name => (names_iff name).mp, tabulated⟩).imp ?_
    rintro name table ⟨⟨isName, isThere⟩, tabulates⟩
    exact exported.tells isName isThere tabulates
  have names_eq : names = tables.map (·.operation ++ ".json") := by
    rw [← List.forall₂_eq_eq_eq, List.forall₂_map_right_iff]
    exact told.imp fun _ _ => And.left
  refine ⟨names_eq ▸ ascending, ?_, ?_⟩
  · -- Every table comes from some name, which is the converse reading.
    have flipped : List.Forall₂ (fun table name =>
        (∃ operation ∈ operations,
          TellsLast workingDir harness dir suites finished operation table) ∧
        name = table.operation ++ ".json") tables names :=
      .flip (told.imp fun _ _ => And.symm)
    exact ((List.forall₂_and_left tables names).mp flipped).1
  · intro operation isAsked isSupported
    have member := (names_iff operation.exportName).mpr
      ⟨operation.isName_exportName, isExport operation isAsked isSupported⟩
    rw [names_eq, List.mem_map] at member
    obtain ⟨table, isTable, name_eq⟩ := member
    exact ⟨table, isTable, (String.append_left_inj ".json").mp name_eq⟩

/-- Where the timings of all operations that some suite supports are exported,
they can be loaded, and what is loaded shows them. -/
theorem Exported.ensures_load
    (named : dir.text ≠ "")
    (exported : Exported workingDir harness dir suites operations finished tree)
    (isExport : ∀ operation ∈ operations,
      (Group.collect? suites operation).isSome = true ->
        tree.IsExport workingDir dir operation.exportName)
    (supported : ∃ operation ∈ operations,
      (Group.collect? suites operation).isSome = true) :
    (Report.load dir).Ensures (exportScene workingDir process).world
      (fun _ => True)
      (fun loaded _ => ∃ tables, loaded = .ok tables ∧
        Shows workingDir harness dir suites operations finished tables)
      tree := by
  obtain ⟨operation, isAsked, isSupported⟩ := supported
  have isThere := isExport operation isAsked isSupported
  have leads : tree.Leads workingDir dir (dir.locationFrom workingDir)
      .directory := by
    obtain ⟨⟨_, _, _, leadsTo⟩, _⟩ := isThere
    exact FileTree.leads_of_leads_join named operation.isName_exportName leadsTo
  have readable : ∀ name, Path.IsName name ->
      tree.IsExport workingDir dir name ->
        ∃ entries, tree.HoldsTimings workingDir (dir.join name) entries := by
    intro name isName isThere
    obtain ⟨operation, _, rfl, _, _, _, _, entries, _, holds⟩ :=
      exported.last_of_isExport isName isThere
    exact ⟨entries, holds⟩
  apply (Report.ensures_load leads readable
    ⟨_, operation.isName_exportName, isThere⟩).mono
  rintro _ _ ⟨names, tables, rfl, ascending, names_iff, tabulated⟩
  exact ⟨tables, rfl, exported.shows isExport ascending names_iff tabulated⟩

/-- The report of a directory shows exactly what a run exported to it, if the
directory has a name and every run of the timing program left its timings.  A
run can only fail where the directory cannot be made, before anything is
timed. -/
theorem report_shows_exports
    (task : RunTask)
    (report : ReportTask)
    (config : Config)
    (verbosity : Nat)
    (hyperfine : Path)
    (sameDir : report.dir = task.resultsDir)
    (exportsTimings : task.json = true)
    (dir_eq : dir = config.resultsDirOr task.resultsDir)
    (named : dir.text ≠ "")
    (harness_eq : harness = ⟨hyperfine, task.harnessOptions config verbosity⟩)
    (isLog : NamedLog journal)
    (exports : Exporting workingDir process harness dir suites)
    (supported : ∃ operation ∈ operations,
      (Group.collect? suites operation).isSome = true)
    (clean : NoTimings workingDir dir tree)
    {result : Except HarnessFailure Summary}
    (runs : (timeGroups journal (harness.time journal) suites operations).Runs
      (exportScene workingDir process).world tree result finished after)
    (wrote : ∀ run ∈ finished, Wrote workingDir harness dir suites run) :
    (finished = [] ∧ ∃ failure, result = .error failure ∧
        Stuck workingDir journal dir tree failure) ∨
      (∃ summary, result = .ok summary) ∧
        (Report.load (config.resultsDirOr report.dir)).Ensures
          (exportScene workingDir process).world (fun _ => True)
          (fun loaded _ => ∃ tables, loaded = .ok tables ∧
            Shows workingDir harness dir suites operations finished tables)
          after := by
  have isDir : harness.options.exportDir = some dir := by
    rw [harness_eq, dir_eq]
    simp [RunTask.harnessOptions, exportsTimings]
  have exportedFirst : ExportedIfWritten workingDir harness dir suites
      operations [] tree := fun _ => exported_of_noTimings clean
  have timed := timed_of_timeGroups isDir named isLog exports exportedFirst
    (fun _ => .rfl) (fun _ => id) runs wrote
  have exported := carries_exported isDir isLog exports
    (asksOnly_timeGroups journal harness suites operations) _ _ _ _ runs _
      exportedFirst wrote
  rw [List.nil_append] at timed exported
  rcases result with failure | summary
  · exact .inl ⟨timed.1, failure, rfl, timed.2⟩
  have isExport : ∀ operation ∈ operations,
      (Group.collect? suites operation).isSome = true ->
        after.IsExport workingDir dir operation.exportName := by
    intro operation isAsked isSupported
    obtain ⟨group, collected⟩ := Option.isSome_iff_exists.mp isSupported
    exact exported.isExport collected
      (timed group (List.mem_filterMap.mpr ⟨operation, isAsked, collected⟩))
  refine .inr ⟨⟨summary, rfl⟩, ?_⟩
  rw [sameDir, ← dir_eq]
  exact exported.ensures_load named isExport supported

end Exported

/-! ### An operation that is exported twice -/

namespace ExportedTwice

/-- Timings are exported. -/
def task : RunTask where
  fixture := "trio"
  json := true

/-- The directory of timings is configured. -/
def config (dir : String) : Config where
  resultsDir := some dir

/-- The suite of a tool that does not support all operations. -/
def suites : List Suite :=
  [{ tool := .ripenv
     context :=
      ⟨⟨"/bin/ripenv"⟩, "ripenv", ⟨"/s/ripenv"⟩, ⟨"/s/ripenv-cache"⟩⟩ }]

/-- One operation is timed again, and one is skipped. -/
def operations : List Operation :=
  [.lockWarm, .syncNoop, .lockCold, .lockWarm]

/-- The timing program. -/
def harness (dir : String) : Harness :=
  ⟨⟨"/bin/hyperfine"⟩, task.harnessOptions (config dir) 0⟩

/-- A document of no timings. -/
def document : String := "\x7b\"results\": []\x7d"

/-- The timing program writes a document where it was told to, which is after
its counts. -/
def processes : Scene.Processes := fun launch tree =>
  match launch.arguments.drop 5 with
  | text :: _ =>
    (.ok (.code 0),
      (Scene.taking (tree.write [] ⟨text⟩ document.toUTF8) tree).2)
  | [] => (.ok (.code 0), tree)

/-- A host on which the timing program does so. -/
def host : Action.Host Finished :=
  Scene.host processes Finished.shown

/-- What comes of timing where there are no files at first. -/
def ran (dir : String) :
    Except HarnessFailure Summary × List Finished × FileTree :=
  (timeGroups {} ((harness dir).time {}) suites operations).on host ⟨[]⟩

theorem exporting (dir : String) :
    Exporting []
      (fun launch tree exit last => (exit, last) = processes launch tree)
      (harness dir) ⟨dir⟩ suites where
  starts _ _ _ _ _ _ ended := ⟨_, congrArg Prod.fst ended⟩
  spares operation group collected tree exit last ended := by
    obtain ⟨rfl, _⟩ := (Group.collect?_eq_some_iff _ _ _).mp collected
    obtain rfl : last = (Scene.taking (tree.write []
        (Path.join ⟨dir⟩ operation.exportName) document.toUTF8) tree).2 :=
      congrArg Prod.snd ended
    refine spares_of_changes (Scene.changesWithin_taking tree [] _ _)
      (fun _ => id) ?_
    intro name isName _ spared isWritten
    rw [Path.locationFrom_join [] _ operation.isName_exportName] at isWritten
    obtain ⟨_, names_eq⟩ := List.append_inj' isWritten rfl
    exact spared (by simpa using names_eq)

theorem noTimings (dir : Path) : NoTimings [] dir ⟨[]⟩ := by
  intro name _ _ content executable
  rw [FileTree.get?_of_ne_root _ (by simp)]
  exact nofun

theorem supported : ∃ operation ∈ operations,
    (Group.collect? suites operation).isSome = true :=
  ⟨.lockCold, by decide, by decide⟩

theorem runs_ran (dir : String) :
    (timeGroups {} ((harness dir).time {}) suites operations).Runs
      (exportScene [] fun launch tree exit last =>
        (exit, last) = processes launch tree).world
      ⟨[]⟩ (ran dir).1 (ran dir).2.1 (ran dir).2.2 := by
  rw [ran, host]
  exact Action.runs_on (Scene.possible_host processes Finished.shown) _ _

/-- Where the document is read back after every run, every run wrote it. -/
theorem wrote_of_read
    (dir : String)
    (each : ∀ run ∈ (ran dir).2.1, ∀ operation ∈ Operation.all,
      ∀ group ∈ Group.collect? suites operation,
        run.launch = (harness dir).launch group ->
          run.tree.read [] (Path.join ⟨dir⟩ operation.exportName) =
            .ok document.toUTF8) :
    ∀ run ∈ (ran dir).2.1, Wrote [] (harness dir) ⟨dir⟩ suites run :=
  fun run member operation group collected same =>
    ⟨[], FileTree.holdsTimings_of_read
      (each run member operation operation.mem_all group collected same) rfl⟩

end ExportedTwice

open ExportedTwice in
theorem report_shows_exports_twice :
    ((ran "/new/out").2.1.length = 3 ∧
      ∀ run ∈ (ran "/new/out").2.1,
        Wrote [] (harness "/new/out") ⟨"/new/out"⟩ suites run) ∧
      (∃ summary, (ran "/new/out").1 = .ok summary) ∧
      ∃ tables,
        ((Report.load ((config "/new/out").resultsDirOr none)).on host
          (ran "/new/out").2.2).1 = .ok tables ∧
        Shows [] (harness "/new/out") ⟨"/new/out"⟩ suites operations
          (ran "/new/out").2.1 tables := by
  have threeRuns : (ran "/new/out").2.1.length = 3 := by decide +kernel
  have wrote := wrote_of_read "/new/out" (by decide +kernel)
  have shown := report_shows_exports task {} (config "/new/out") 0
    ⟨"/bin/hyperfine"⟩ rfl rfl rfl (by decide) rfl
    (fun _ isFile => by cases isFile) (exporting "/new/out") supported
    (noTimings _) (runs_ran "/new/out") wrote
  have someRun : (ran "/new/out").2.1 ≠ [] :=
    List.ne_nil_of_length_eq_add_one threeRuns
  obtain ⟨done, loads⟩ := shown.resolve_left fun stuck => someRun stuck.1
  refine ⟨⟨threeRuns, wrote⟩, done, ?_⟩
  exact ((Action.runs_on (Scene.possible_host processes Finished.shown) _
    _).of_ensures loads).2

open ExportedTwice in
/-- Where the configured directory has an empty name, timings are exported to
the directory that a session starts in, but no report of it can be given. -/
theorem report_misses_exports :
    ((config "").resultsDirOr none = ⟨""⟩ ∧
      ∀ run ∈ (ran "").2.1, Wrote [] (harness "") ⟨""⟩ suites run) ∧
    ((ran "").2.1.length = 3 ∧
      (ran "").1.map Summary.skipped = .ok [.syncNoop]) ∧
    ((Report.load ((config "").resultsDirOr none)).on host (ran "").2.2).1 =
      .error (.read ⟨""⟩ .noSuchFile) := by
  have refused : ∀ tree, ((Report.load ⟨""⟩).on host tree).1 =
      .error (.read ⟨""⟩ .noSuchFile) := fun _ => rfl
  exact ⟨⟨rfl, wrote_of_read "" (by decide +kernel)⟩,
    ⟨by decide +kernel, by decide +kernel⟩, refused _⟩

end Session
end LockBench
