import LockBench.Proofs.Session.Continuity
import LockBench.Proofs.Session.Finding
import LockBench.Proofs.Session.Scenes

/-!
# What a run leaves behind

Before its session a run changes nothing but the log.  The session works in a
directory of its own, which is removed with all that is in it, whatever came of
the session.  So a run leaves the log and, where it came to time a group, the
exported timings with the directories that had to be made for them.
-/

namespace LockBench

/-- What is observed of a run: the directory that its session gets, and the
processes of the timing program. -/
inductive Mark
  | opened (dir : Path)
  | timed (launch : Launch)

/-- What is observed of a request. -/
def Mark.shown :
    (request : Request) -> request.Answer -> FileTree -> List Mark
  | .makeFreshDir _ _, .ok dir, _ => [.opened dir]
  | .attend launch, _, _ => [.timed launch]
  | _, _, _ => []

/-- A location is in the directory of a path, at whatever depth. -/
def Path.Encloses
    (workingDir : Location)
    (dir : Path)
    (location : Location) : Prop :=
  ∃ name rest, location = dir.locationFrom workingDir ++ name :: rest

/-- A tool may do anything at and below the directories that it is given. -/
def Suite.scope
    (workingDir : Location)
    (suite : Suite) : Scope where
  free location :=
    suite.context.workingDir.locationFrom workingDir <+: location ∨
      suite.context.cacheDir.locationFrom workingDir <+: location

/-- The timings of an operation are written to a location. -/
def Harness.ExportsTo
    (workingDir : Location)
    (harness : Harness)
    (operation : Operation)
    (location : Location) : Prop :=
  ∃ path ∈ harness.exportPath? operation,
    location = path.locationFrom workingDir

namespace Session

/-- What is relied on of the processes of a run.  Asking for a program changes
no files, a tool changes them in the directories that it is given, and the
timing program, with the commands that it runs, in the session's directory and
where it was told to write the timings. -/
structure Tidy
    (workingDir : Location)
    (process : Launch -> FileTree -> Except OsError Exit -> FileTree -> Prop)
    (task : RunTask)
    (config : Config)
    (verbosity : Nat) : Prop where
  /-- Asking what a shim stands for changes nothing. -/
  looks : ∀ (tool : Tool) tree exit last,
    process ⟨"pyenv", ["which", tool.name], [], none⟩ tree exit last ->
      last = tree
  /-- The first lock of a suite changes files in its directories only. -/
  locks : ∀ sessionDir tools, ∀ suite ∈
    RunTask.planSuites (config.projectOptions none none) sessionDir tools,
      ∀ tree exit last, process (suite.launch .lock) tree exit last ->
        tree.ChangesWithin (suite.scope workingDir) last
  /-- Timing a group changes files in the session's directory only, and the
  file of its timings. -/
  times : ∀ harness : Harness,
    harness.options = task.harnessOptions config verbosity ->
      ∀ sessionDir tools operation group,
        Group.collect? (RunTask.planSuites (config.projectOptions none none)
            sessionDir tools) operation = some group ->
          ∀ tree exit last, process (harness.launch group) tree exit last ->
            tree.ChangesWithin
              { free := sessionDir.Encloses workingDir
                files := harness.ExportsTo workingDir group.operation } last

/-! ## The directory of a session -/

section Directory

variable {tree before made late : FileTree} {workingDir : Location}
  {dir sessionDir : Path} {scope : Scope}

/-- A directory and those on its way are there, and none of them is in it. -/
def Founded
    (workingDir : Location)
    (dir : Path)
    (tree : FileTree) : Prop :=
  ∀ location ∈ dir.trail workingDir,
    ¬dir.Encloses workingDir location ∧ tree.get? location = some .directory

theorem not_encloses_self
    (workingDir : Location)
    (dir : Path) :
    ¬dir.Encloses workingDir (dir.locationFrom workingDir) := by
  rintro ⟨name, rest, same⟩
  simp at same

/-- A directory that is newly made is founded. -/
theorem founded_of_makeDir
    (rooted : before.Rooted)
    (made_eq : before.makeDir workingDir dir = .ok made) :
    Founded workingDir dir made := by
  obtain ⟨location, placed, nothing, rfl⟩ := FileTree.makeDir_eq_ok made_eq
  have location_eq : dir.locationFrom workingDir = location :=
    (FileTree.place_eq_follow placed).symm
  intro other onTrail
  rw [Path.trail, List.mem_append, List.mem_singleton] at onTrail
  rcases onTrail with leftBehind | rfl
  · have isDirectory := FileTree.passes_of_place placed other leftBehind
    constructor
    · rintro ⟨name, rest, rfl⟩
      rw [location_eq, rooted.nothing_below nothing] at isDirectory
      cases isDirectory
    · rw [FileTree.get?_put_of_ne _ _ _, isDirectory]
      rintro rfl
      rw [nothing] at isDirectory
      cases isDirectory
  · refine ⟨not_encloses_self workingDir dir, ?_⟩
    rw [location_eq]
    exact (FileTree.place_put placed (by simp [nothing]) .directory).2

/-- It stays so while anything may happen in it, but not outside. -/
theorem Founded.of_changes
    (founded : Founded workingDir dir tree)
    (changes : tree.ChangesWithin scope late)
    (freeInside : ∀ location, scope.free location ->
      dir.Encloses workingDir location) :
    Founded workingDir dir late := by
  intro location onTrail
  obtain ⟨notInside, isDirectory⟩ := founded location onTrail
  exact ⟨notInside, changes.stays location
    (fun isFree => notInside (freeInside location isFree)) isDirectory⟩

/-- A founded directory that was newly made is what its path leads to. -/
theorem Founded.leads
    (founded : Founded workingDir dir late)
    (made_eq : before.makeDir workingDir dir = .ok made) :
    late.Leads workingDir dir (dir.locationFrom workingDir) .directory := by
  obtain ⟨location, placed, _, _⟩ := FileTree.makeDir_eq_ok made_eq
  have location_eq : dir.locationFrom workingDir = location :=
    (FileTree.place_eq_follow placed).symm
  have isDirectory := (founded _ (List.mem_append_right _
    (List.mem_singleton.mpr rfl))).2
  rw [location_eq] at isDirectory ⊢
  have placedStill := FileTree.place_of_passes placed fun earlier leftBehind =>
    (founded earlier (List.mem_append_left _ leftBehind)).2
  exact FileTree.leads_of_place placedStill isDirectory fun noDirectory =>
    absurd rfl noDirectory

/-- Directories that are made directly in a founded one are in it. -/
theorem Founded.changesWithin_attemptDirs
    (founded : Founded workingDir dir tree)
    {name : String}
    (isName : Path.IsName name) :
    tree.ChangesWithin { free := dir.Encloses workingDir }
      (tree.attemptDirs workingDir (dir.join name)).2 := by
  have changes := tree.changesWithin_attemptDirs workingDir (dir.join name)
  refine ⟨fun location _ => changes.stays location id, ?_⟩
  intro location differs
  obtain ⟨onTrail, nothing, _⟩ :=
    ((changes.inside location differs).resolve_left id).resolve_left id
  rw [Path.trail_join workingDir dir isName] at onTrail
  rcases List.mem_append.mp onTrail with isAbove | isNew
  · rw [(founded location isAbove).2] at nothing
    cases nothing
  · exact .inl ⟨name, [], List.mem_singleton.mp isNew⟩

/-- When a directory is removed that was newly made, it is gone with all that
is in it, and only what happened outside of it is left. -/
theorem changesWithin_removeTree
    (rooted : before.Rooted)
    (made_eq : before.makeDir workingDir dir = .ok made)
    (changes : made.ChangesWithin scope late)
    (freeInside : ∀ location, scope.free location ->
      dir.Encloses workingDir location) :
    (∀ rest, (late.removeTree workingDir dir).get?
        (dir.locationFrom workingDir ++ rest) = none) ∧
      before.ChangesWithin { scope with free := fun _ => False }
        (late.removeTree workingDir dir) := by
  have founded := (founded_of_makeDir rooted made_eq).of_changes changes
    freeInside
  have found := (FileTree.find_eq_ok_iff _ _ _ _ _).mpr (founded.leads made_eq)
  obtain ⟨location, placed, nothing, rfl⟩ := FileTree.makeDir_eq_ok made_eq
  have location_eq : dir.locationFrom workingDir = location :=
    (FileTree.place_eq_follow placed).symm
  obtain ⟨_, _, parent, name, _, _, _, _, isBelow⟩ :=
    FileTree.place_eq_some placed
  have notRoot : location ≠ [] := by simp [isBelow]
  have pruned := FileTree.pruned_removeBelow late notRoot
  rw [location_eq] at found ⊢
  rw [FileTree.removeTree, found]
  dsimp only
  have goneBefore : ∀ other, location <+: other ->
      before.get? other = none := by
    rintro other ⟨rest, rfl⟩
    exact rooted.nothing_below nothing rest
  have same : ∀ other, ¬location <+: other ->
      ¬scope.free other ∧
        (before.put location .directory).get? other = before.get? other := by
    intro other notInside
    refine ⟨fun isFree => notInside ?_, FileTree.get?_put_of_ne _ ?_ _⟩
    · obtain ⟨_, rest, rfl⟩ := freeInside other isFree
      rw [location_eq]
      exact List.prefix_append _ _
    · rintro rfl
      exact notInside List.prefix_rfl
  refine ⟨fun rest => pruned.gone _ (List.prefix_append _ _), ?_, ?_⟩
  · intro other _ isDirectory
    have notInside : ¬location <+: other := by
      intro inside
      rw [goneBefore other inside] at isDirectory
      cases isDirectory
    obtain ⟨notFree, same_eq⟩ := same other notInside
    rw [pruned.kept other notInside]
    exact changes.stays other notFree (same_eq.trans isDirectory)
  · intro other differs
    by_cases inside : location <+: other
    · rw [pruned.gone other inside, goneBefore other inside] at differs
      exact absurd rfl differs
    · obtain ⟨notFree, same_eq⟩ := same other inside
      rw [pruned.kept other inside, ← same_eq] at differs ⊢
      exact .inr ((changes.inside other differs).resolve_left notFree)

end Directory

/-! ## What a session changes -/

/-- What is observed where only some processes and directories are. -/
def scene
    (workingDir : Location)
    (process : Launch -> FileTree -> Except OsError Exit -> FileTree -> Prop) :
    Scene Mark :=
  ⟨workingDir, process, Mark.shown⟩

section Changes

variable {workingDir : Location}
  {process : Launch -> FileTree -> Except OsError Exit -> FileTree -> Prop}
  {task : RunTask} {config : Config} {verbosity : Nat} {journal : Journal}
  {sessionDir : Path} {made : FileTree} {scope : List Mark -> Scope}

/-- The session's directory is the only one that was observed, and files have
changed in a scope. -/
def Kept
    (sessionDir : Path)
    (made : FileTree)
    (scope : List Mark -> Scope)
    (seen : List Mark)
    (tree : FileTree) : Prop :=
  (∀ dir, .opened dir ∈ seen -> dir = sessionDir) ∧
    made.ChangesWithin (scope seen) tree

/-- A plain request of which nothing is observed changes files in a scope that
its own scope is part of. -/
theorem carries_plain
    {request : Request}
    (plain : request.IsPlain)
    (within : ∀ seen, (request.scope workingDir).Le (scope seen)) :
    Action.Carries (scene workingDir process).world
      (Kept sessionDir made scope) (Action.request request) := by
  intro tree answer moments last runs seen kept
  obtain ⟨allows, rfl⟩ := Action.world_of_runs runs
  have unseen : (scene workingDir process).shows request answer last = [] := by
    cases request with
    | makeFreshDir parent stem => exact plain.elim
    | attend launch => exact plain.elim
    | _ => rfl
  rw [unseen, List.append_nil]
  exact ⟨kept.1, kept.2.trans
    ((Scene.changesWithin_of_allows plain allows).mono (within seen))⟩

theorem carries_note
    (logs : ∀ seen,
      Scope.Le { files := journal.LogsAt workingDir } (scope seen))
    {request : Request}
    (noted : journal.Asks request) :
    Action.Carries (scene workingDir process).world
      (Kept sessionDir made scope) (Action.request request) := by
  obtain ⟨plain, within⟩ := noted.scope_le workingDir
  exact carries_plain plain fun seen => within.trans (logs seen)

/-! ### Before the session -/

/-- Before its session a run has made nothing, and only the log has changed. -/
def Untouched
    (workingDir : Location)
    (journal : Journal)
    (start : FileTree)
    (seen : List Mark)
    (tree : FileTree) : Prop :=
  seen = [] ∧ tree.Rooted ∧
    start.ChangesWithin { files := journal.LogsAt workingDir } tree

/-- What is asked for to find things leaves all but the log untouched. -/
theorem carries_find
    (tidy : Tidy workingDir process task config verbosity)
    {start : FileTree}
    {request : Request}
    (asked : AsksToFind journal request) :
    Action.Carries (scene workingDir process).world
      (Untouched workingDir journal start) (Action.request request) := by
  intro tree answer moments last runs seen untouched
  obtain ⟨allows, rfl⟩ := Action.world_of_runs runs
  obtain ⟨rfl, rooted, changes⟩ := untouched
  cases asked with
  | note noted =>
      obtain ⟨plain, within⟩ := noted.scope_le workingDir
      have further := changes.trans
        ((Scene.changesWithin_of_allows plain allows).mono within)
      cases noted with
      | append isFile content =>
          refine ⟨rfl, ?_, further⟩
          rcases Takes.eq_or_ok allows with rfl | appended
          · exact rooted
          · exact rooted.of_putsFile (FileTree.putsFile_of_append appended)
      | _ =>
          obtain rfl : last = tree := allows
          exact ⟨rfl, rooted, further⟩
  | shim tool =>
      obtain rfl := tidy.looks tool _ _ _ allows
      exact ⟨rfl, rooted, changes⟩
  | workingDir =>
      obtain ⟨_, rfl⟩ := allows
      exact ⟨rfl, rooted, changes⟩
  | kind path =>
      obtain ⟨_, rfl⟩ := allows
      exact ⟨rfl, rooted, changes⟩
  | rawKind path =>
      obtain ⟨_, rfl⟩ := allows
      exact ⟨rfl, rooted, changes⟩
  | entries dir =>
      obtain ⟨_, rfl⟩ := allows
      exact ⟨rfl, rooted, changes⟩
  | _ =>
      obtain rfl : last = tree := allows
      exact ⟨rfl, rooted, changes⟩

/-! ### While suites are seeded -/

/-- Anything may happen in the session's directory, and the log may be written
to. -/
def quietScope
    (workingDir : Location)
    (journal : Journal)
    (sessionDir : Path) : Scope where
  free := sessionDir.Encloses workingDir
  files := journal.LogsAt workingDir

theorem logs_le_quietScope
    (workingDir : Location)
    (journal : Journal)
    (sessionDir : Path) :
    Scope.Le { files := journal.LogsAt workingDir }
      (quietScope workingDir journal sessionDir) :=
  Scope.files_le fun _ => .inr

theorem encloses_join_join
    (workingDir : Location)
    (dir : Path)
    {name file : String}
    (isName : Path.IsName name)
    (isFile : Path.IsName file) :
    dir.Encloses workingDir
      (((dir.join name).join file).locationFrom workingDir) := by
  rw [Path.locationFrom_join workingDir _ isFile,
    Path.locationFrom_join workingDir _ isName]
  exact ⟨name, [file], by simp⟩

/-- The directories of a planned suite are in that of its session. -/
theorem scope_le_of_planned
    {project : ProjectOptions}
    {tools : List (Tool × List Path)}
    {suite : Suite}
    (planned : suite ∈ RunTask.planSuites project sessionDir tools)
    (workingDir : Location) :
    (suite.scope workingDir).Le { free := sessionDir.Encloses workingDir } := by
  obtain ⟨work_eq, cache_eq⟩ := dirs_of_planned planned
  obtain ⟨isWork, _, isCache⟩ := (within_of_planned planned).areNames
  refine ⟨?_, fun _ => False.elim, fun _ => False.elim⟩
  rw [Suite.scope, work_eq, cache_eq,
    Path.locationFrom_join workingDir _ isWork,
    Path.locationFrom_join workingDir _ isCache]
  rintro location (⟨rest, rfl⟩ | ⟨rest, rfl⟩)
  · exact ⟨suite.workName, rest, by simp⟩
  · exact ⟨suite.cacheName, rest, by simp⟩

/-- A fixture is a file or one of those that come with the program. -/
def Known (fixture : Fixture) : Prop :=
  ∀ bundled, fixture = .bundled bundled -> bundled ∈ Bundled.all

section Seeding

variable {tools : List (Tool × List Path)} {suite : Suite}

/-- The session's directory is the only one that was observed, and all that has
changed is in it, or is the log. -/
abbrev KeptQuiet
    (workingDir : Location)
    (journal : Journal)
    (sessionDir : Path)
    (made : FileTree) : List Mark -> FileTree -> Prop :=
  Kept sessionDir made fun _ => quietScope workingDir journal sessionDir

/-- A directory is made directly in the session's. -/
theorem carries_makeDirs
    (founded : Founded workingDir sessionDir made)
    {name : String}
    (isName : Path.IsName name) :
    Action.Carries (scene workingDir process).world
      (KeptQuiet workingDir journal sessionDir made)
      (Action.request (.makeDirs (sessionDir.join name))) := by
  intro tree answer moments last runs seen kept
  obtain ⟨allows, rfl⟩ := Action.world_of_runs runs
  obtain rfl : last = _ := congrArg Prod.snd allows
  have foundedStill := founded.of_changes kept.2 fun _ => id
  exact ⟨by simpa [scene, Mark.shown] using kept.1, kept.2.trans
    ((foundedStill.changesWithin_attemptDirs isName).mono
      (Scope.free_le fun _ => id))⟩

/-- A file is put into a directory in the session's. -/
theorem carries_write
    {request : Request}
    (plain : request.IsPlain)
    {name file : String}
    (isName : Path.IsName name)
    (isFile : Path.IsName file)
    (scope_eq : request.scope workingDir =
      { files :=
          (· = ((sessionDir.join name).join file).locationFrom workingDir) }) :
    Action.Carries (scene workingDir process).world
      (KeptQuiet workingDir journal sessionDir made)
      (Action.request request) := by
  refine carries_plain plain fun _ => ?_
  rw [scope_eq]
  refine Scope.files_le ?_
  rintro location rfl
  exact .inl (encloses_join_join workingDir sessionDir isName isFile)

theorem carries_materialize
    (founded : Founded workingDir sessionDir made)
    {fixture : Fixture}
    (known : Known fixture) :
    Action.Carries (scene workingDir process).world
      (KeptQuiet workingDir journal sessionDir made)
      (fixture.materialize sessionDir) := by
  refine (asksOnly_materialize sessionDir fixture).carries
    fun request asked => ?_
  cases asked with
  | makeDirs isBundled =>
      exact carries_makeDirs founded (isName_fixtureName (known _ isBundled))
  | write isBundled content =>
      exact carries_write trivial (isName_fixtureName (known _ isBundled))
        (by decide) rfl

theorem carries_seedAll
    (tidy : Tidy workingDir process task config verbosity)
    (founded : Founded workingDir sessionDir made)
    (source : Path) :
    Action.Carries (scene workingDir process).world
      (KeptQuiet workingDir journal sessionDir made)
      (RunTask.seedAll journal source (RunTask.planSuites
        (config.projectOptions none none) sessionDir tools)).run := by
  refine (RunTask.asksOnly_seedAll journal source _).carries ?_
  rintro request ⟨suite, planned, asked⟩
  obtain ⟨work_eq, cache_eq⟩ := dirs_of_planned planned
  obtain ⟨isWork, _, isCache⟩ := (within_of_planned planned).areNames
  cases asked with
  | note noted =>
      exact carries_note
        (fun _ => logs_le_quietScope workingDir journal sessionDir) noted
  | makeDirs isDir =>
      rw [work_eq, cache_eq] at isDir
      rcases isDir with rfl | rfl
      · exact carries_makeDirs founded isWork
      · exact carries_makeDirs founded isCache
  | manifest asked =>
      cases asked with
      | read => exact carries_plain trivial fun _ => Scope.empty_le _
      | write content =>
          have isFile : Path.IsName Project.fileName := by decide
          refine carries_write trivial isWork isFile ?_
          rw [work_eq]
          rfl
      | copy =>
          have isFile : Path.IsName Suite.manifestName := by decide
          refine carries_write trivial isWork isFile ?_
          rw [work_eq]
          rfl
  | lock =>
      intro tree answer moments last runs seen kept
      obtain ⟨allows, rfl⟩ := Action.world_of_runs runs
      refine ⟨by simpa [scene, Mark.shown] using kept.1, kept.2.trans ?_⟩
      exact (tidy.locks sessionDir tools suite planned _ _ _ allows).mono
        ((scope_le_of_planned planned workingDir).trans
          (Scope.free_le fun _ => id))

end Seeding

/-! ### While groups are timed -/

/-- Where a run may leave something: at the place of the log and of the timings
of groups that the timing program was started for, and on the trail of the
directory of timings. -/
def leftovers
    (workingDir : Location)
    (journal : Journal)
    (options : HarnessOptions)
    (operations : List Operation)
    (marks : List Mark) : Scope where
  files location := journal.LogsAt workingDir location ∨
    ∃ hyperfine group, group.operation ∈ operations ∧
      .timed (Harness.launch ⟨hyperfine, options⟩ group) ∈ marks ∧
        Harness.ExportsTo workingDir ⟨hyperfine, options⟩ group.operation
          location
  dirs location := ∃ dir ∈ options.exportDir, location ∈ dir.trail workingDir

section Timing

/-- While groups are timed, their timings may be written too, and the directory
of timings may be made. -/
def timingScope
    (workingDir : Location)
    (journal : Journal)
    (options : HarnessOptions)
    (operations : List Operation)
    (sessionDir : Path)
    (seen : List Mark) : Scope :=
  { leftovers workingDir journal options operations seen with
    free := sessionDir.Encloses workingDir }

variable {hyperfine : Path} {tools : List (Tool × List Path)}

/-- The more has been started, the more may be left. -/
theorem timingScope_append_le
    (options : HarnessOptions)
    (operations : List Operation)
    (seen moments : List Mark) :
    (timingScope workingDir journal options operations sessionDir seen).Le
      (timingScope workingDir journal options operations sessionDir
        (seen ++ moments)) where
  free _ := id
  files location := by
    rintro (isLog | ⟨hyperfine, group, isAsked, timed, exports⟩)
    · exact .inr (.inl isLog)
    · exact .inr (.inr ⟨hyperfine, group, isAsked,
        List.mem_append_left _ timed, exports⟩)
  dirs _ := .inr

theorem quietScope_le
    (workingDir : Location)
    (journal : Journal)
    (options : HarnessOptions)
    (operations : List Operation)
    (sessionDir : Path)
    (seen : List Mark) :
    (quietScope workingDir journal sessionDir).Le
      (timingScope workingDir journal options operations sessionDir seen) :=
  ⟨fun _ => id, fun _ => .inr ∘ Or.inl, fun _ => False.elim⟩

theorem logs_le_timingScope
    (workingDir : Location)
    (journal : Journal)
    (options : HarnessOptions)
    (operations : List Operation)
    (sessionDir : Path)
    (seen : List Mark) :
    Scope.Le { files := journal.LogsAt workingDir }
      (timingScope workingDir journal options operations sessionDir seen) :=
  (logs_le_quietScope workingDir journal sessionDir).trans
    (quietScope_le workingDir journal options operations sessionDir seen)

/-- Timing operations changes files in the session's directory, the log and the
timings only. -/
theorem carries_timeGroups_within
    (tidy : Tidy workingDir process task config verbosity)
    (operations : List Operation) :
    let options := task.harnessOptions config verbosity
    Action.Carries (scene workingDir process).world
      (Kept sessionDir made
        (timingScope workingDir journal options operations sessionDir))
      (timeGroups journal (Harness.time ⟨hyperfine, options⟩ journal)
        (RunTask.planSuites (config.projectOptions none none) sessionDir tools)
        operations) := by
  intro options
  refine (asksOnly_timeGroups journal _ _ operations).carries
    fun request asked => ?_
  cases asked with
  | note noted =>
      exact carries_note
        (fun seen => logs_le_timingScope workingDir journal options operations
          sessionDir seen) noted
  | makeDirs isDir =>
      exact carries_plain trivial fun _ => Scope.dirs_le fun location onTrail =>
        .inr ⟨_, isDir, onTrail⟩
  | attend isAsked collected =>
      rename_i operation group
      intro tree answer moments last runs seen kept
      obtain ⟨allows, rfl⟩ := Action.world_of_runs runs
      have changes := tidy.times ⟨hyperfine, options⟩ rfl sessionDir tools _ _
        collected _ _ _ allows
      refine ⟨?_, (kept.2.mono
        (timingScope_append_le options operations seen _)).trans
        (changes.mono ?_)⟩
      · intro dir member
        rcases List.mem_append.mp member with before | isTimed
        · exact kept.1 dir before
        · cases List.mem_singleton.mp isTimed
      · refine ⟨fun _ => id, fun location exports => ?_, fun _ => False.elim⟩
        refine .inr (.inr ⟨hyperfine, group, ?_, ?_, exports⟩)
        · obtain ⟨rfl, _⟩ := (Group.collect?_eq_some_iff _ _ _).mp collected
          exact isAsked
        · exact List.mem_append_right _ (List.mem_singleton.mpr rfl)

/-- Where no suite supports an operation, all operations are skipped and nothing
is asked for. -/
theorem timeGroups_of_unsupported
    (journal : Journal)
    (time : Group -> Action (Except HarnessFailure Outcome))
    {suites : List Suite}
    {operations : List Operation}
    (unsupported : ∀ operation ∈ operations,
      Group.collect? suites operation = none) :
    timeGroups journal time suites operations =
      pure (.ok { skipped := operations }) := by
  induction operations with
  | nil => rfl
  | cons operation rest inductionHypothesis =>
      rw [List.forall_mem_cons] at unsupported
      rw [timeGroups, unsupported.1, inductionHypothesis unsupported.2]
      rfl

/-- Where some suite supports an operation, there is an outcome, unless timing
fails altogether. -/
theorem ensures_timeGroups_outcomes
    {world : World Mark}
    {time : Group -> Action (Except HarnessFailure Outcome)}
    {suites : List Suite}
    {operations : List Operation}
    (supported : ∃ operation ∈ operations,
      Group.collect? suites operation ≠ none)
    (tree : FileTree) :
    (timeGroups journal time suites operations).Ensures world (fun _ => True)
      (fun result _ => ∀ summary, result = .ok summary ->
        summary.outcomes ≠ []) tree := by
  induction operations generalizing tree with
  | nil => simp at supported
  | cons operation rest inductionHypothesis =>
      rw [timeGroups]
      cases collected : Group.collect? suites operation with
      | none =>
          have others : ∃ operation ∈ rest,
              Group.collect? suites operation ≠ none := by
            simpa [collected] using supported
          rw [Action.ensures_bind]
          apply (inductionHypothesis others tree).mono
          rintro (failure | summary) last someOutcome
          · rintro _ ⟨⟩
          · rintro _ ⟨⟩
            exact someOutcome summary rfl
      | some group =>
          rw [Action.ensures_bind]
          refine (Action.ensures_nothing _ tree).mono fun _ first _ => ?_
          rw [Action.ensures_bind]
          apply (Action.ensures_nothing _ first).mono
          rintro (failure | outcome) second _
          · rintro _ ⟨⟩
          dsimp only
          rw [Action.ensures_bind]
          refine (Action.ensures_nothing _ second).mono fun _ third _ => ?_
          rw [Action.ensures_bind]
          apply (Action.ensures_nothing _ third).mono
          rintro (failure | summary) last _
          · rintro _ ⟨⟩
          · rintro _ ⟨⟩
            exact List.cons_ne_nil _ _

end Timing

/-! ### The session as a whole -/

section Whole

variable {hyperfine : Path} {tools : List (Tool × List Path)}
  {fixture : Fixture} {result : Except Failure Summary} {last : FileTree}
  {moments : List Mark}

/-- Around the timing of its groups, a session changes no more than the log. -/
theorem carries_timing_of_timeGroups
    (logs : ∀ seen,
      Scope.Le { files := journal.LogsAt workingDir } (scope seen))
    {harness : Harness}
    {suites : List Suite}
    (carries : Action.Carries (scene workingDir process).world
      (Kept sessionDir made scope)
      (timeGroups journal (harness.time journal) suites
        task.chosenOperations)) :
    Action.Carries (scene workingDir process).world
      (Kept sessionDir made scope)
      (timing task journal harness suites).run := by
  have prints : ∀ text, Action.Carries (scene workingDir process).world
      (Kept sessionDir made scope) (Action.print text) := fun text =>
    carries_plain trivial fun _ => Scope.empty_le _
  have reports : ∀ summary, Action.Carries (scene workingDir process).world
      (Kept sessionDir made scope)
      (RunTask.reportSummary journal summary) := by
    intro summary
    refine (RunTask.asksOnly_reportSummary journal summary).carries
      fun request asked => ?_
    cases asked with
    | note noted => exact carries_note logs noted
    | kind path => exact carries_plain trivial fun _ => Scope.empty_le _
  refine (prints _).run_lift.run_bind fun _ => ?_
  refine (carries_attempt carries _).run_bind fun summary => ?_
  exact (reports summary).run_lift.run_bind fun _ => Action.carries_pure _ _

/-- Seeding changes files in the session's directory and the log only. -/
theorem carries_seeding
    (tidy : Tidy workingDir process task config verbosity)
    (founded : Founded workingDir sessionDir made)
    (known : Known fixture) :
    Action.Carries (scene workingDir process).world
      (KeptQuiet workingDir journal sessionDir made)
      (seeding journal fixture sessionDir (RunTask.planSuites
        (config.projectOptions none none) sessionDir tools)).run := by
  have notes : Action.Carries (scene workingDir process).world
      (KeptQuiet workingDir journal sessionDir made)
      (journal.note (.debug ("Session directory: " ++ sessionDir.text))) :=
    (asksOnly_note journal _).carries fun _ noted =>
      carries_note (fun _ => logs_le_quietScope workingDir journal sessionDir)
        noted
  refine notes.run_lift.run_bind fun _ => ?_
  exact (carries_attempt (carries_materialize founded known) _).run_bind
    (carries_seedAll tidy founded)

/-- The run came to time a group: it ended with an outcome, or because the
timing program could not be used. -/
def CameToTime : Except Failure Summary -> Prop
  | .ok summary => summary.outcomes ≠ []
  | .error failure => ∃ cause, failure = .harness cause

/-- Timing ends with an outcome or with a failure of the timing program, if
some suite supports some operation. -/
theorem cameToTime_of_timing
    {world : World Mark}
    {harness : Harness}
    {suites : List Suite}
    (supported : ∃ operation ∈ task.chosenOperations,
      Group.collect? suites operation ≠ none)
    {tree : FileTree}
    (runs : (timing task journal harness suites).run.Runs world tree result
      moments last) :
    CameToTime result := by
  have ensures : (timing task journal harness suites).run.Ensures world
      (fun _ => True) (fun result _ => CameToTime result) tree := by
    rw [timing, Action.ensures_run_bind, Action.ensures_run_lift]
    refine (Action.ensures_nothing _ tree).mono fun _ first _ => ?_
    dsimp only
    rw [Action.ensures_run_bind, ensures_attempt]
    apply (ensures_timeGroups_outcomes supported first).mono
    rintro (failure | summary) second someOutcome
    · exact ⟨failure, rfl⟩
    dsimp only [Except.mapError]
    rw [Action.ensures_run_bind, Action.ensures_run_lift]
    exact (Action.ensures_nothing _ second).mono fun _ _ _ =>
      someOutcome summary rfl
  exact (runs.of_ensures ensures).2

/-- A session changes files in its directory, the log and the timings only, and
the timings only where it came to time a group. -/
theorem kept_of_session
    (tidy : Tidy workingDir process task config verbosity)
    (founded : Founded workingDir sessionDir made)
    (known : Known fixture)
    (runs : (task.session journal config verbosity fixture tools hyperfine
      sessionDir).run.Runs (scene workingDir process).world made result moments
        last) :
    let options := task.harnessOptions config verbosity
    Kept sessionDir made (timingScope workingDir journal options
        task.chosenOperations sessionDir) ([.opened sessionDir] ++ moments)
        last ∧
      (CameToTime result ∨ KeptQuiet workingDir journal sessionDir made
        ([.opened sessionDir] ++ moments) last) := by
  intro options
  have starts : KeptQuiet workingDir journal sessionDir made
      [.opened sessionDir] made := ⟨by simp, .rfl⟩
  have widens : ∀ {seen tree},
      KeptQuiet workingDir journal sessionDir made seen tree ->
        Kept sessionDir made
          (timingScope workingDir journal options task.chosenOperations
            sessionDir) seen tree :=
    fun kept => ⟨kept.1, kept.2.mono (quietScope_le _ _ options _ _ _)⟩
  rw [session_eq] at runs
  obtain ⟨seeded, early, middle, late, runsSeeding, rfl, runsTiming⟩ :=
    Action.runs_run_bind runs
  have keptSeeded := carries_seeding tidy founded known _ _ _ _ runsSeeding _
    starts
  cases seeded with
  | error failure =>
      obtain ⟨rfl, rfl, rfl⟩ := runsTiming
      rw [List.append_nil]
      exact ⟨widens keptSeeded, .inr keptSeeded⟩
  | ok done =>
      rw [← List.append_assoc]
      constructor
      · exact carries_timing_of_timeGroups
          (fun seen => logs_le_timingScope workingDir journal options
            task.chosenOperations sessionDir seen)
          (carries_timeGroups_within tidy task.chosenOperations) _ _ _ _
          runsTiming _ (widens keptSeeded)
      by_cases supported : ∃ operation ∈ task.chosenOperations,
          Group.collect? (RunTask.planSuites (config.projectOptions none none)
            sessionDir tools) operation ≠ none
      · exact .inl (cameToTime_of_timing supported runsTiming)
      · right
        refine carries_timing_of_timeGroups
          (fun _ => logs_le_quietScope workingDir journal sessionDir) ?_ _ _ _ _
          runsTiming _ keptSeeded
        rw [timeGroups_of_unsupported journal _ (by simpa using supported)]
        exact Action.carries_pure _ _

end Whole

/-! ## Runs as a whole -/

/-- A fixture that is found is a known one. -/
theorem ensures_findFixture
    {world : World Mark}
    (task : RunTask)
    (config : Config)
    (tree : FileTree) :
    (task.findFixture config).run.Ensures world (fun _ => True)
      (fun result _ => ∀ fixture, result = .ok fixture -> Known fixture)
      tree := by
  rw [RunTask.findFixture, Action.ensures_run_bind, Action.ensures_run_lift,
    Fixture.resolve?, Action.ensures_bind]
  apply (Action.ensures_nothing _ tree).mono
  rintro (_ | path) first _
  · dsimp only
    cases named : Bundled.all.find? (·.name = task.fixture) with
    | none =>
        rw [Option.map_none, Action.ensures_pure]
        dsimp only
        rw [Action.ensures_run_bind]
        apply (Action.ensures_nothing _ first).mono
        rintro (_ | _) second _ <;> rintro _ ⟨⟩
    | some bundled =>
        rintro _ ⟨⟩ _ ⟨⟩
        exact List.mem_of_find?_eq_some named
  · rintro _ ⟨⟩ _ ⟨⟩

theorem ensures_seek_known
    {world : World Mark}
    (task : RunTask)
    (journal : Journal)
    (config : Config)
    (tree : FileTree) :
    (task.seek journal config).run.Ensures world (fun _ => True)
      (fun result _ => ∀ found, result = .ok found -> Known found.fixture)
      tree := by
  rw [RunTask.seek, Action.ensures_run_bind]
  apply (ensures_findFixture task config tree).mono
  rintro (failure | fixture) first known
  · rintro _ ⟨⟩
  dsimp only
  rw [Action.ensures_run_bind, Action.ensures_run_lift]
  refine (Action.ensures_nothing _ first).mono fun tools second _ => ?_
  dsimp only
  rw [Action.ensures_run_bind]
  apply (Action.ensures_nothing _ second).mono
  rintro (failure | hyperfine) third _ <;> rintro _ ⟨⟩
  exact known fixture rfl

/-- What is left of a run. -/
structure Leaves
    (workingDir : Location)
    (task : RunTask)
    (journal : Journal)
    (config : Config)
    (verbosity : Nat)
    (tree : FileTree)
    (result : Except Failure Summary)
    (marks : List Mark)
    (last : FileTree) : Prop where
  /-- The directory of a session is gone, with all that was in it. -/
  gone : ∀ dir, .opened dir ∈ marks -> ∀ rest,
    last.get? (dir.locationFrom workingDir ++ rest) = none
  /-- All is as it was, except for the log, for the timings of groups that the
  timing program was started for, and for their directory with those above it
  that had to be made. -/
  within : tree.ChangesWithin (leftovers workingDir journal
    (task.harnessOptions config verbosity) task.chosenOperations marks) last
  /-- Where no timings were asked for, and where the run failed before it came
  to time a group, only the log may have changed. -/
  quiet : task.json = false ∨ ¬CameToTime result ->
    tree.ChangesWithin { files := journal.LogsAt workingDir } last

theorem leaves_of_untouched
    {tree last : FileTree}
    {result : Except Failure Summary}
    {marks : List Mark}
    (untouched : Untouched workingDir journal tree marks last) :
    Leaves workingDir task journal config verbosity tree result marks last := by
  obtain ⟨rfl, _, changes⟩ := untouched
  refine ⟨by simp, changes.mono ?_, fun _ => changes⟩
  exact Scope.files_le fun _ => .inr ∘ Or.inl

/-- Without exported timings, only the log is left. -/
theorem leftovers_le_of_quiet
    {options : HarnessOptions}
    (unexported : options.exportDir = none)
    (operations : List Operation)
    (marks : List Mark) :
    (leftovers workingDir journal options operations marks).Le
      { files := journal.LogsAt workingDir } where
  free _ := id
  files location := by
    rintro (isLog | ⟨hyperfine, group, _, _, path, isPath, _⟩)
    · exact .inr isLog
    · simp [Harness.exportPath?, unexported] at isPath
  dirs location := by
    rintro ⟨dir, isDir, _⟩
    simp [unexported] at isDir

/-- A session whose directory has just been made leaves what a run may leave,
once that directory is removed. -/
theorem leaves_of_session
    (tidy : Tidy workingDir process task config verbosity)
    {hyperfine : Path}
    {tools : List (Tool × List Path)}
    {fixture : Fixture}
    (known : Known fixture)
    {tree before late : FileTree}
    {result : Except Failure Summary}
    {moments : List Mark}
    (untouched : Untouched workingDir journal tree [] before)
    (made_eq : before.makeDir workingDir sessionDir = .ok made)
    (runs : (task.session journal config verbosity fixture tools hyperfine
      sessionDir).run.Runs (scene workingDir process).world made result moments
        late) :
    Leaves workingDir task journal config verbosity tree result
      ([.opened sessionDir] ++ moments)
      (late.removeTree workingDir sessionDir) := by
  obtain ⟨_, rooted, changes⟩ := untouched
  obtain ⟨kept, timedOrQuiet⟩ := kept_of_session tidy
    (founded_of_makeDir rooted made_eq) known runs
  obtain ⟨gone, within⟩ := changesWithin_removeTree rooted made_eq kept.2
    fun _ => id
  have logs : ∀ wider : Scope,
      (∀ location, journal.LogsAt workingDir location ->
        wider.files location) -> tree.ChangesWithin wider before :=
    fun wider isFile => changes.mono (Scope.files_le fun location =>
      .inr ∘ isFile location)
  have leaves : tree.ChangesWithin (leftovers workingDir journal
      (task.harnessOptions config verbosity) task.chosenOperations
      ([.opened sessionDir] ++ moments))
      (late.removeTree workingDir sessionDir) :=
    (logs _ fun _ => Or.inl).trans within
  refine ⟨?_, leaves, ?_⟩
  · intro dir isOpened rest
    obtain rfl := kept.1 dir isOpened
    exact gone rest
  · rintro (notJson | neverTimed)
    · refine leaves.mono (leftovers_le_of_quiet ?_ _ _)
      simp [RunTask.harnessOptions, notJson]
    · have keptQuiet := timedOrQuiet.resolve_left neverTimed
      exact (logs _ fun _ => id).trans
        (changesWithin_removeTree rooted made_eq keptQuiet.2 fun _ => id).2

/-- After its search, a run leaves what it may leave. -/
theorem leaves_after_seek
    (tidy : Tidy workingDir process task config verbosity)
    {found : RunTask.Found}
    (known : Known found.fixture)
    {tree first last : FileTree}
    {result : Except Failure Summary}
    {marks : List Mark}
    (untouched : Untouched workingDir journal tree [] first)
    (runs : (do
      if (RunTask.withBinaries found.tools).isEmpty then throw .noTools
      let parent ← RunTask.temporaryDir
      let sessionDir ← Attempt.lift .io
        (Action.makeFreshDir parent "bench-ripenv-")
      let result ← ExceptT.lift (task.session journal config verbosity
        found.fixture (RunTask.withBinaries found.tools) found.hyperfine
        sessionDir).run
      Action.removeTree sessionDir
      Attempt.lift id (pure result) : Attempt Summary).run.Runs
        (scene workingDir process).world first result marks last) :
    Leaves workingDir task journal config verbosity tree result marks last := by
  split at runs
  · cases runs
    exact leaves_of_untouched untouched
  obtain ⟨_, early, second, _, runsLift, rfl, runsOpening⟩ :=
    Action.runs_run_bind runs
  obtain ⟨parent, rfl, runsParent⟩ := Action.runs_run_lift runsLift
  have stillUntouched := (RunTask.asksOnly_temporaryDir .variable
    .workingDir).carries (fun _ => carries_find tidy) _ _ _ _ runsParent [] untouched
  obtain rfl : early = [] := stillUntouched.1
  obtain ⟨_, _, made, _, runsAttempt, rfl, runsInside⟩ :=
    Action.runs_run_bind runsOpening
  obtain ⟨opened, rfl, runsMake⟩ := runs_attempt runsAttempt
  obtain ⟨allows, rfl⟩ := Action.world_of_runs runsMake
  cases opened with
  | error cause =>
      obtain ⟨rfl, rfl, rfl⟩ := runsInside
      obtain rfl : last = second := allows
      exact leaves_of_untouched stillUntouched
  | ok sessionDir =>
      obtain ⟨_, made_eq⟩ := allows
      obtain ⟨_, _, late, _, runsCaught, rfl, runsClosing⟩ :=
        Action.runs_run_bind runsInside
      obtain ⟨ended, rfl, runsSession⟩ := Action.runs_run_lift runsCaught
      obtain ⟨_, _, cleared, _, runsRemoval, rfl, runsReturn⟩ :=
        Action.runs_run_bind runsClosing
      obtain ⟨_, rfl, runsRemoved⟩ := Action.runs_run_lift runsRemoval
      obtain ⟨removed, rfl⟩ := Action.world_of_runs runsRemoved
      obtain ⟨given, rfl, returned⟩ := runs_attempt runsReturn
      cases returned
      have leaves := leaves_of_session tidy known stillUntouched made_eq
        runsSession
      have same : ended.mapError id = ended := by cases ended <;> rfl
      obtain rfl : last = _ := removed
      rw [same]
      simpa [scene, Mark.shown] using leaves

/-- Whatever comes of a run, its session's directory is gone at the end, and
all else is as it was but for the log and for the timings that it was asked to
export. -/
theorem leaves_only_results_and_log
    (task : RunTask)
    (journal : Journal)
    (config : Config)
    (verbosity : Nat)
    (workingDir : Location)
    (process : Launch -> FileTree -> Except OsError Exit -> FileTree -> Prop)
    (tidy : Tidy workingDir process task config verbosity)
    {tree last : FileTree}
    {result : Except Failure Summary}
    {marks : List Mark}
    (rooted : tree.Rooted)
    (runs : (task.perform journal config verbosity).run.Runs
      (scene workingDir process).world tree result marks last) :
    Leaves workingDir task journal config verbosity tree result marks last := by
  rw [RunTask.perform_eq_seek] at runs
  obtain ⟨sought, early, first, late, runsSeek, rfl, runsOn⟩ :=
    Action.runs_run_bind runs
  have untouched := (RunTask.asksOnly_seek task journal config).carries
    (fun _ => carries_find tidy) _ _ _ _ runsSeek [] ⟨rfl, rooted, .rfl⟩
  have known := (runsSeek.of_ensures
    (ensures_seek_known task journal config tree)).2
  cases sought with
  | error failure =>
      obtain ⟨rfl, rfl, rfl⟩ := runsOn
      exact leaves_of_untouched (by simpa using untouched)
  | ok found =>
      obtain rfl : early = [] := untouched.1
      rw [List.nil_append] at untouched ⊢
      exact leaves_after_seek tidy (known found rfl) untouched runsOn

end Changes

/-! ### A run that exports its timings -/

namespace OneExport

/-- One lock is timed, and the timings are exported to a new directory. -/
def task : RunTask where
  fixture := "trio"
  tools := { ripenv := true }
  paths := { ripenv := ["/bin/ripenv"] }
  operations := [.lockNoop]
  runs := some 1
  json := true
  resultsDir := some ⟨"/new/out"⟩
  hyperfine := some ⟨"/bin/hyperfine"⟩

/-- The log is next to the session's directory. -/
def journal : Journal where
  file := some ⟨"/tmp/bench-ripenv.log"⟩

/-- The files at first. -/
def files : FileTree :=
  ⟨[(["tmp"], .directory), (["bin"], .directory),
    (["bin", "hyperfine"], .file .empty true)]⟩

/-- A file is written, if it can be. -/
def written
    (tree : FileTree)
    (path : Path) : FileTree :=
  (Scene.taking (tree.write [] path .empty) tree).2

/-- A tool that runs in a directory writes its lockfile there.  The timing
program writes the timings where it was told to, which is after its counts. -/
def processes : Scene.Processes := fun launch tree =>
  match launch.workingDir, launch.arguments.drop 5 with
  | some dir, _ => (.ok (.code 0), written tree (dir.join "uv.lock"))
  | none, text :: _ => (.ok (.code 0), written tree ⟨text⟩)
  | none, [] => (.ok (.code 0), tree)

theorem rooted : files.Rooted := by
  refine FileTree.rooted_of_nodes ?_
  simp only [files, List.forall_mem_cons]
  exact ⟨rfl, rfl, rfl, nofun⟩

theorem tidy :
    Tidy [] (fun launch tree exit last => (exit, last) = processes launch tree)
      task {} 0 where
  looks _ _ _ _ ended := congrArg Prod.snd ended
  locks sessionDir tools suite planned tree exit last ended := by
    have inDir : ∀ dir, dir = suite.context.workingDir ->
        tree.ChangesWithin (suite.scope [])
          (written tree (dir.join "uv.lock")) := by
      rintro dir rfl
      refine (Scene.changesWithin_taking tree [] _ _).mono (Scope.files_le ?_)
      rintro location rfl
      rw [Path.locationFrom_join [] _ (by decide)]
      exact .inl (.inl (List.prefix_append _ _))
    obtain rfl : last = _ := congrArg Prod.snd ended
    obtain ⟨tool, context, project, manifest⟩ := suite
    cases tool with
    | ripenv => exact inDir _ rfl
    | pipenv => exact inDir _ rfl
    | uv => exact .rfl
  times harness isHarness sessionDir tools operation group collected tree exit
      last ended := by
    obtain ⟨binary, options⟩ := harness
    obtain rfl : options = _ := isHarness
    obtain rfl : last = written tree
        (Path.join ⟨"/new/out"⟩ (group.operation.name ++ ".json")) :=
      congrArg Prod.snd ended
    refine (Scene.changesWithin_taking tree [] _ _).mono (Scope.files_le ?_)
    exact fun location isExport => .inr ⟨_, rfl, isExport⟩

end OneExport

theorem leaves_only_results_and_log_oneExport :
    let ran := (OneExport.task.perform OneExport.journal {} 0).run.on
      (Scene.host OneExport.processes Mark.shown) OneExport.files
    (ran.2.1.length = 2 ∧
      (ran.2.2.get? ["new", "out", "lock-noop.json"]).isSome = true) ∧
      Leaves [] OneExport.task OneExport.journal {} 0 OneExport.files ran.1
        ran.2.1 ran.2.2 := by
  refine ⟨by decide +kernel, ?_⟩
  exact leaves_only_results_and_log OneExport.task OneExport.journal {} 0 []
    _ OneExport.tidy OneExport.rooted
    (Action.runs_on (Scene.possible_host OneExport.processes Mark.shown) _ _)

end Session
end LockBench
