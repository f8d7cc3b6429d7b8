import LockBench.Proofs.Session.Exports
import LockBench.Proofs.Session.Quiet
import LockBench.Proofs.Session.Residue
import LockBench.Proofs.Session.Turns

/-!
# Announced timings

At the end of a session the timings of an outcome are announced if something is
at their path.  It is there because a run of the timing program put it there, or
because it stood there already when the timing began: what an earlier session
left is announced as well.
-/

namespace LockBench

open LockBench.Action

namespace Session

/-! ## Where a node comes from -/

/-- A turn in which the timing program was asked to run for a group. -/
def IsTiming
    (harness : Harness)
    (turn : Turn) : Prop :=
  ∃ group ended, turn.exchange = ⟨.attend (harness.launch group), ended⟩

/-- Where a node at a location comes from, after some turns of timing. -/
inductive Origin
    (workingDir : Location)
    (harness : Harness)
    (began : FileTree)
    (turns : List Turn)
    (location : Location)
    (node : Node) : Prop
  /-- It was there when the timing began. -/
  | stood (present : began.get? location = some node)
  /-- A run of the timing program put it there. -/
  | timed
      {turn : Turn}
      (isTurn : turn ∈ turns)
      (isTiming : IsTiming harness turn)
      (puts : turn.Puts location node)
  /-- It is a directory on the way to that of the timings, which was made. -/
  | made
      {dir : Path}
      (isDir : dir ∈ harness.options.exportDir)
      (onTrail : location ∈ dir.trail workingDir)
      (isDirectory : node = .directory)

section Origins

variable {scene : Scene μ} {harness : Harness} {began : FileTree}
  {turns : List Turn} {location : Location} {node : Node} {path : Path}
  {journal : Journal} {suites : List Suite} {operations : List Operation}

theorem Origin.mono
    {workingDir : Location}
    {more : List Turn}
    (origin : Origin workingDir harness began turns location node)
    (among : ∀ turn ∈ turns, turn ∈ more) :
    Origin workingDir harness began more location node := by
  cases origin with
  | stood present => exact .stood present
  | timed isTurn isTiming puts => exact .timed (among _ isTurn) isTiming puts
  | made isDir onTrail isDirectory => exact .made isDir onTrail isDirectory

/-- Something was found at a path, and it comes from somewhere. -/
def FoundWithOrigin
    (workingDir : Location)
    (harness : Harness)
    (began : FileTree)
    (turns : List Turn)
    (path : Path) : Prop :=
  ∃ turn ∈ turns, ∃ kind node,
    turn.exchange = ⟨.kind path, some kind⟩ ∧
      turn.before.get? (path.locationFrom workingDir) = some node ∧
      Origin workingDir harness began turns (path.locationFrom workingDir) node

/-- What is at a path comes from somewhere, and so does what was found there. -/
structure Accounted
    (workingDir : Location)
    (harness : Harness)
    (began : FileTree)
    (path : Path)
    (turns : List Turn)
    (tree : FileTree) : Prop where
  /-- What is there now comes from somewhere. -/
  stands : ∀ node,
    tree.get? (path.locationFrom workingDir) = some node ->
      Origin workingDir harness began turns (path.locationFrom workingDir) node
  /-- What was found there did so as well. -/
  found : ∀ kind, ⟨.kind path, some kind⟩ ∈ Turn.transcript turns ->
    FoundWithOrigin workingDir harness began turns path

/-- Where a path leads to something, that is at its location. -/
theorem exists_of_kind?
    {tree : FileTree}
    {workingDir : Location}
    {kind : Kind}
    (leads : some kind = tree.kind? workingDir path) :
    ∃ node, tree.get? (path.locationFrom workingDir) = some node := by
  rw [FileTree.kind?] at leads
  split at leads
  · rename_i place node found
    have leadsTo := (FileTree.find_eq_ok_iff _ _ _ _ _).mp found
    refine ⟨node, ?_⟩
    rw [Path.locationFrom, ← leadsTo.place_eq]
    exact leadsTo.present
  · cases leads

/-- What a request leaves is accounted for, if what is at the path comes from
somewhere then. -/
theorem Accounted.concat
    {tree last : FileTree}
    {request : Request}
    {answer : request.Answer}
    (accounted : Accounted scene.workingDir harness began path turns tree)
    (allows : scene.Allows request tree answer last)
    (stands : ∀ node,
      last.get? (path.locationFrom scene.workingDir) = some node ->
        Origin scene.workingDir harness began
          (turns ++ [⟨⟨request, answer⟩, tree, last⟩])
          (path.locationFrom scene.workingDir) node) :
    Accounted scene.workingDir harness began path
      (turns ++ [⟨⟨request, answer⟩, tree, last⟩]) last := by
  refine ⟨stands, fun kind looked => ?_⟩
  rw [Turn.transcript_append] at looked
  have among : ∀ turn ∈ turns,
      turn ∈ turns ++ [⟨⟨request, answer⟩, tree, last⟩] :=
    fun _ => List.mem_append_left _
  rcases List.mem_append.mp looked with isEarlier | isLast
  · obtain ⟨turn, isTurn, kind, node, looked, present, origin⟩ :=
      accounted.found kind isEarlier
    exact ⟨turn, among turn isTurn, kind, node, looked, present,
      origin.mono among⟩
  · cases List.mem_singleton.mp isLast
    obtain ⟨node, present⟩ := exists_of_kind? allows.1
    exact ⟨_, List.mem_append_right _ (List.mem_singleton.mpr rfl), kind, node,
      rfl, present, (accounted.stands node present).mono among⟩

/-- A plain request that does not write to the path leaves everything accounted
for. -/
theorem carries_accounted_of_plain
    {request : Request}
    (plain : request.IsPlain)
    (notFree : ∀ location, ¬(request.scope scene.workingDir).free location)
    (notFile : ¬(request.scope scene.workingDir).files
      (path.locationFrom scene.workingDir))
    (dirs : ∀ location, (request.scope scene.workingDir).dirs location ->
      ∃ dir ∈ harness.options.exportDir,
        location ∈ dir.trail scene.workingDir) :
    Action.Carries scene.turnwise
      (Accounted scene.workingDir harness began path)
      (Action.request request) := by
  intro tree answer _ last runs turns accounted
  obtain ⟨allows, rfl⟩ := Action.world_of_runs runs
  have changes := Scene.changesWithin_of_allows plain allows
  refine accounted.concat allows fun node present => ?_
  by_cases same : last.get? (path.locationFrom scene.workingDir) =
      tree.get? (path.locationFrom scene.workingDir)
  · exact (accounted.stands node (same ▸ present)).mono
      fun _ => List.mem_append_left _
  · obtain ⟨isDir, -, isDirectory⟩ :=
      ((changes.inside _ same).resolve_left (notFree _)).resolve_left notFile
    obtain ⟨dir, isExportDir, onTrail⟩ := dirs _ isDir
    rw [present, Option.some.injEq] at isDirectory
    exact .made isExportDir onTrail isDirectory

/-- A note does not write to a file of timings. -/
theorem carries_accounted_of_note
    (notLog : ¬journal.LogsAt scene.workingDir
      (path.locationFrom scene.workingDir))
    {request : Request}
    (noted : journal.Asks request) :
    Action.Carries scene.turnwise
      (Accounted scene.workingDir harness began path)
      (Action.request request) := by
  obtain ⟨plain, within⟩ := noted.scope_le scene.workingDir
  refine carries_accounted_of_plain plain within.free
    (fun isFile => (within.files _ isFile).elim id notLog) ?_
  exact fun location isDir => ((within.dirs location isDir).elim id id).elim

/-- Whatever timing asks for leaves everything accounted for. -/
theorem carries_accounted_of_timing
    (notLog : ¬journal.LogsAt scene.workingDir
      (path.locationFrom scene.workingDir))
    {request : Request}
    (asked : AsksToTime journal harness suites operations request) :
    Action.Carries scene.turnwise
      (Accounted scene.workingDir harness began path)
      (Action.request request) := by
  cases asked with
  | note noted => exact carries_accounted_of_note notLog noted
  | makeDirs isDir =>
      exact carries_accounted_of_plain trivial (fun _ => id) id
        fun location onTrail => ⟨_, isDir, onTrail⟩
  | attend isAsked collected =>
      intro tree answer _ last runs turns accounted
      obtain ⟨allows, rfl⟩ := Action.world_of_runs runs
      refine accounted.concat allows fun node present => ?_
      by_cases stood :
          tree.get? (path.locationFrom scene.workingDir) = some node
      · exact (accounted.stands node stood).mono
          fun _ => List.mem_append_left _
      · exact .timed (List.mem_append_right _ (List.mem_singleton.mpr rfl))
          ⟨_, _, rfl⟩ ⟨stood, present⟩

/-- All of the timing and of the report leaves everything accounted for. -/
theorem accounted_of_timing
    {task : RunTask}
    {last : FileTree}
    {result : Except Failure Summary}
    (notLog : ¬journal.LogsAt scene.workingDir
      (path.locationFrom scene.workingDir))
    (runs : (timing task journal harness suites).run.Runs scene.turnwise began
      result turns last) :
    Accounted scene.workingDir harness began path turns last := by
  have starts : Accounted scene.workingDir harness began path [] began :=
    ⟨fun node present => .stood present, nofun⟩
  have reports : ∀ summary, Action.Carries scene.turnwise
      (Accounted scene.workingDir harness began path)
      (RunTask.reportSummary journal summary) := by
    intro summary
    refine (RunTask.asksOnly_reportSummary journal summary).carries
      fun request asked => ?_
    cases asked with
    | note noted => exact carries_accounted_of_note notLog noted
    | kind path =>
        exact carries_accounted_of_plain trivial (fun _ => id) id
          fun _ => False.elim
  have carries : Action.Carries scene.turnwise
      (Accounted scene.workingDir harness began path)
      (timing task journal harness suites).run :=
    .run_bind (.run_lift (carries_accounted_of_note notLog (.print _)))
      fun _ =>
      .run_bind (carries_attempt ((asksOnly_timeGroups _ _ _ _).carries
        fun _ => carries_accounted_of_timing notLog) _) fun summary =>
      .run_bind (.run_lift (reports summary)) fun _ =>
      Action.carries_pure _ _
  exact carries _ _ _ _ runs [] starts

end Origins

/-! ## What is announced -/

/-- The timings of an operation are announced. -/
def AnnouncesExport (one : Utterance) : Prop :=
  ∃ operation path, one = .note (RunTask.announcement operation path)

/-- An announcement is for an outcome whose timings were found. -/
def IsForFound
    (outcomes : List Outcome)
    (transcript : List Exchange)
    (one : Utterance) : Prop :=
  ∃ outcome ∈ outcomes, ∃ path, outcome.exportPath = some path ∧
    one = .note (RunTask.announcement outcome.operation path) ∧
    ∃ kind, ⟨.kind path, some kind⟩ ∈ transcript

section Reports

variable {journal : Journal} {transcript : List Exchange}

theorem IsForFound.mono
    {outcomes more : List Outcome}
    {longer : List Exchange}
    {one : Utterance}
    (isFor : IsForFound outcomes transcript one)
    (among : ∀ outcome ∈ outcomes, outcome ∈ more)
    (within : ∀ exchange ∈ transcript, exchange ∈ longer) :
    IsForFound more longer one := by
  obtain ⟨outcome, isOutcome, path, isExport, one_eq, kind, found⟩ := isFor
  exact ⟨outcome, among _ isOutcome, path, isExport, one_eq, kind,
    within _ found⟩

/-- What is said of an outcome announces its timings, where they are found. -/
theorem tells_announceExport
    {outcome : Outcome}
    (yields : (RunTask.announceExport journal outcome).Yields transcript ()) :
    Tells journal (IsForFound [outcome] transcript) transcript := by
  rw [RunTask.announceExport] at yields
  split at yields
  · obtain ⟨rfl, -⟩ := yields_pure_iff.mp yields
    exact .nothing rfl rfl
  rename_i path isExport
  obtain ⟨isThere, _, late, looked, goesOn, rfl⟩ := yields_bind_iff.mp yields
  obtain ⟨answer, _, _, asked, returned, rfl⟩ := yields_bind_iff.mp looked
  obtain rfl := yields_request_iff.mp asked
  obtain ⟨rfl, rfl⟩ := yields_pure_iff.mp returned
  have looking : ∀ allowed : Utterance -> Prop,
      Tells journal allowed ([⟨.kind path, answer⟩] ++ []) :=
    fun _ => .nothing rfl rfl
  cases answer with
  | none =>
      obtain ⟨rfl, -⟩ := yields_pure_iff.mp goesOn
      exact looking _
  | some kind =>
      rw [if_pos Option.isSome_some] at goesOn
      refine (looking _).append ⟨_, utters_note goesOn, ?_⟩
      rw [List.forall_mem_singleton]
      exact ⟨outcome, List.mem_singleton.mpr rfl, path, isExport, rfl, kind,
        by simp⟩

theorem tells_announceExports
    {outcomes : List Outcome}
    (yields : (outcomes.forM (RunTask.announceExport journal)).Yields transcript
      ()) :
    Tells journal (IsForFound outcomes transcript) transcript := by
  induction outcomes generalizing transcript with
  | nil =>
      obtain ⟨rfl, -⟩ := yields_pure_iff.mp yields
      exact .nothing rfl rfl
  | cons outcome rest inductionHypothesis =>
      obtain ⟨_, early, late, first, others, rfl⟩ := yields_bind_iff.mp yields
      refine .append ((tells_announceExport first).mono fun one isFor => ?_)
        ((inductionHypothesis others).mono fun one isFor => ?_)
      · exact isFor.mono (by simp) fun _ => List.mem_append_left _
      · exact isFor.mono (fun _ => List.mem_cons_of_mem _)
          fun _ => List.mem_append_right _

/-- An operation that is skipped is told in other words. -/
theorem not_announcesExport_skipped (operation : Operation) :
    ¬AnnouncesExport (.note (.info ("Skipped " ++ operation.name ++
      ": no selected tool supports it"))) := by
  rintro ⟨other, path, same⟩
  simp only [RunTask.announcement, Utterance.note.injEq, Entry.info.injEq]
    at same
  have heads := congrArg (fun text => text.toList.head?) same
  cases other <;> simp [Operation.name] at heads

/-- What is said before the report announces no timings. -/
theorem not_announcesExport_of_remark
    {task : RunTask}
    {one : Utterance}
    (isRemark : task.Remark one) : ¬AnnouncesExport one := by
  rintro ⟨operation, path, rfl⟩
  cases isRemark

theorem tells_of_remarks
    (task : RunTask)
    {allowed : Utterance -> Prop}
    {action : Action α}
    {value : α}
    (speaks : action.Speaks journal task.Remark)
    (yields : action.Yields transcript value) :
    Tells journal (fun one => AnnouncesExport one -> allowed one) transcript :=
  (speaks _ _ yields).mono fun _ isRemark announces =>
    absurd announces (not_announcesExport_of_remark isRemark)

/-- The report announces the timings of outcomes only, and only where they are
found. -/
theorem tells_reportSummary
    {summary : Summary}
    (yields : (RunTask.reportSummary journal summary).Yields transcript ()) :
    Tells journal (fun one => AnnouncesExport one ->
      IsForFound summary.outcomes transcript one) transcript := by
  obtain ⟨_, skipping, _, skipped, reports, rfl⟩ := yields_bind_iff.mp yields
  obtain ⟨_, announcing, ending, announced, ended, rfl⟩ :=
    yields_bind_iff.mp reports
  have saysSkipped : Tells journal (fun one => ¬AnnouncesExport one)
      skipping :=
    speaks_forM (fun operation =>
      speaks_note (not_announcesExport_skipped operation)) _ _ skipped
  have saysClosing : Tells journal (fun one => ¬AnnouncesExport one)
      ending := by
    refine speaks_note ?_ _ _ ended
    rintro ⟨operation, path, same⟩
    rw [RunTask.closing] at same
    split at same <;> cases same
  refine (saysSkipped.mono fun one silent announces =>
    absurd announces silent).append (.append ?_
      (saysClosing.mono fun one silent announces => absurd announces silent))
  exact (tells_announceExports announced).mono fun one isFor _ =>
    isFor.mono (fun _ => id) (by simp +contextual)

end Reports

/-! ## Where timings are announced from -/

section Timings

variable {harness : Harness} {suites : List Suite}
  {operations : List Operation} {transcript : List Exchange}

/-- An outcome tells the file that the timings of its operation were to be
written to. -/
theorem Submits.exportPath_eq
    {calls : Record}
    (submits : Submits harness calls transcript) :
    ∀ call ∈ calls, ∀ outcome, call.2 = .ok outcome ->
      outcome.exportPath = harness.exportPath? outcome.operation := by
  induction submits with
  | nil startsNone => nofun
  | cons startsNone answers others inductionHypothesis =>
      refine List.forall_mem_cons.mpr ⟨?_, inductionHypothesis⟩
      intro outcome answer_eq
      cases answers with
      | noResultsDir isDir cause => cases answer_eq
      | started ended starts =>
          cases ended with
          | error cause => cases answer_eq
          | ok exit =>
              cases answer_eq
              rfl

theorem exportPath_of_yields
    {journal : Journal}
    {summary : Summary}
    (yields : (timeGroups journal (harness.time journal) suites
      operations).Yields transcript (.ok summary))
    {outcome : Outcome}
    (isOutcome : outcome ∈ summary.outcomes) :
    outcome.exportPath = harness.exportPath? outcome.operation := by
  obtain ⟨calls, timed⟩ := timedInOrder_of_yields yields
  obtain ⟨completed, -⟩ := timed.traced.completed summary rfl
  have isAnswer : .ok outcome ∈ calls.map Prod.snd := by
    rw [completed.answered]
    exact List.mem_map_of_mem isOutcome
  obtain ⟨call, isCall, answer_eq⟩ := List.mem_map.mp isAnswer
  exact timed.submits.exportPath_eq call isCall outcome answer_eq

/-- The log is not where timings are exported to. -/
theorem not_logsAt_of_export
    {journal : Journal}
    (isLog : NamedLog journal)
    (workingDir : Location)
    {operation : Operation}
    {path : Path}
    (isExport : harness.exportPath? operation = some path) :
    ¬journal.LogsAt workingDir (path.locationFrom workingDir) := by
  rw [Harness.exportPath?, Option.map_eq_some_iff] at isExport
  obtain ⟨dir, _, rfl⟩ := isExport
  change ¬journal.LogsAt workingDir
    ((dir.join operation.exportName).locationFrom workingDir)
  rw [Path.locationFrom_join workingDir dir operation.isName_exportName]
  exact not_logsAt_export isLog operation.isName_exportName
    (operation.extension?_exportName dir)

end Timings

/-- The timings of an outcome are announced in a run that has timed its
operations, and what is at their path comes from somewhere since then. -/
inductive Announced
    (scene : Scene μ)
    (task : RunTask)
    (journal : Journal)
    (options : HarnessOptions)
    (result : Except Failure Summary)
    (turns : List Turn) : Utterance -> Prop
  | intro
      {hyperfine path : Path}
      {suites : List Suite}
      {began ended : FileTree}
      {summary : Summary}
      {outcome : Outcome}
      (opening timed closing : List Turn)
      (split : turns = opening ++ (timed ++ closing))
      (runs : (timing task journal ⟨hyperfine, options⟩ suites).run.Runs
        scene.turnwise began result timed ended)
      (completes : result = .ok summary)
      (isOutcome : outcome ∈ summary.outcomes)
      (isExport : outcome.exportPath = some path)
      (found : FoundWithOrigin scene.workingDir ⟨hyperfine, options⟩ began timed
        path) :
      Announced scene task journal options result turns
        (.note (RunTask.announcement outcome.operation path))

section Runs

variable {scene : Scene μ} {task : RunTask} {journal : Journal}
  {config : Config} {verbosity : Nat} {result : Except Failure Summary}
  {turns : List Turn} {tree last : FileTree}

/-- More may have happened before and after. -/
theorem Announced.around
    {options : HarnessOptions}
    {one : Utterance}
    (announced : Announced scene task journal options result turns one)
    (early late : List Turn) :
    Announced scene task journal options result (early ++ (turns ++ late))
      one := by
  cases announced with
  | intro opening timed closing split runs completes isOutcome isExport found =>
      refine .intro (early ++ opening) timed (closing ++ late) ?_ runs completes
        isOutcome isExport found
      rw [split]
      simp only [List.append_assoc]

/-- Where operations are timed, every announcement has an origin. -/
theorem tells_timing
    (isLog : NamedLog journal)
    {hyperfine : Path}
    {options : HarnessOptions}
    {suites : List Suite}
    (runs : (timing task journal ⟨hyperfine, options⟩ suites).run.Runs
      scene.turnwise tree result turns last) :
    Tells journal (fun one => AnnouncesExport one ->
      Announced scene task journal options result turns one)
      (Turn.transcript turns) := by
  have yields := Scene.yields_of_runs runs
  obtain ⟨_, printing, _, printed, goesOn, transcript_eq⟩ :=
    yields_run_lift_bind_iff.mp yields
  rw [transcript_eq]
  refine .append
    (tells_of_remarks task (speaks_heading (.heading suites)) printed) ?_
  rw [yields_run_bind_iff] at goesOn
  obtain ⟨failure, attempted, rfl⟩ |
    ⟨summary, timing, reporting, attempted, reported, rfl⟩ := goesOn
  · exact tells_of_remarks task
      (speaks_attempt (RunTask.speaks_timeGroups _ _ _)) attempted
  refine .append (tells_of_remarks task
    (speaks_attempt (RunTask.speaks_timeGroups _ _ _)) attempted) ?_
  obtain ⟨_, reports, _, toldReport, returned, rfl⟩ :=
    yields_run_lift_bind_iff.mp reported
  obtain ⟨rfl, rfl⟩ := yields_run_pure_iff.mp returned
  rw [List.append_nil] at transcript_eq ⊢
  refine (tells_reportSummary toldReport).mono fun one isFor announces => ?_
  obtain ⟨outcome, isOutcome, path, isExport, rfl, kind, looked⟩ :=
    isFor announces
  obtain ⟨ended, timed, ended_eq⟩ := yields_attempt_iff.mp attempted
  cases ended with
  | error failure => cases ended_eq
  | ok told =>
      cases ended_eq
      have notLog := not_logsAt_of_export isLog scene.workingDir
        ((exportPath_of_yields timed isOutcome).symm.trans isExport)
      have isExchange : ⟨.kind path, some kind⟩ ∈ Turn.transcript turns := by
        rw [transcript_eq]
        exact List.mem_append_right _ (List.mem_append_right _ looked)
      exact .intro [] turns [] (by simp) runs rfl isOutcome isExport
        ((accounted_of_timing notLog runs).found kind isExchange)

theorem tells_session
    (isLog : NamedLog journal)
    {fixture : Fixture}
    {tools : List (Tool × List Path)}
    {hyperfine sessionDir : Path}
    (runs : (task.session journal config verbosity fixture tools hyperfine
      sessionDir).run.Runs scene.turnwise tree result turns last) :
    Tells journal (fun one => AnnouncesExport one -> Announced scene task
        journal (task.harnessOptions config verbosity) result turns one)
      (Turn.transcript turns) := by
  rw [session_eq] at runs
  obtain ⟨seeded, early, middle, late, runsSeeding, rfl, runsTiming⟩ :=
    Action.runs_run_bind runs
  rw [Turn.transcript_append]
  refine .append (tells_of_remarks task (RunTask.speaks_seeding _ _ _)
    (Scene.yields_of_runs runsSeeding)) ?_
  cases seeded with
  | error failure =>
      obtain ⟨rfl, rfl, rfl⟩ := runsTiming
      exact .nothing rfl rfl
  | ok done =>
      refine (tells_timing isLog runsTiming).mono fun one told announces => ?_
      simpa using (told announces).around early []

theorem tells_after_seek
    (isLog : NamedLog journal)
    {found : RunTask.Found}
    (runs : (do
      if (RunTask.withBinaries found.tools).isEmpty then throw .noTools
      let parent ← RunTask.temporaryDir
      let sessionDir ← Attempt.lift .io
        (Action.makeFreshDir parent "bench-ripenv-")
      let result ← ExceptT.lift (task.session journal config verbosity
        found.fixture (RunTask.withBinaries found.tools) found.hyperfine
        sessionDir).run
      Action.removeTree sessionDir
      Attempt.lift id (pure result) : Attempt Summary).run.Runs scene.turnwise
        tree result turns last) :
    Tells journal (fun one => AnnouncesExport one -> Announced scene task
        journal (task.harnessOptions config verbosity) result turns one)
      (Turn.transcript turns) := by
  split at runs
  · cases runs
    exact .nothing rfl rfl
  obtain ⟨_, early, second, _, runsLift, rfl, runsOpening⟩ :=
    Action.runs_run_bind runs
  obtain ⟨parent, rfl, runsParent⟩ := Action.runs_run_lift runsLift
  rw [Turn.transcript_append]
  refine .append (tells_of_remarks task RunTask.speaks_temporaryDir
    (Scene.yields_of_runs runsParent)) ?_
  obtain ⟨opened, opening, made, _, runsAttempt, rfl, runsInside⟩ :=
    Action.runs_run_bind runsOpening
  rw [Turn.transcript_append]
  have opens : (Action.makeFreshDir parent "bench-ripenv-").Speaks journal
      task.Remark := speaks_request trivial
  refine .append (tells_of_remarks task (speaks_attempt opens)
    (Scene.yields_of_runs runsAttempt)) ?_
  cases opened with
  | error failure =>
      obtain ⟨rfl, rfl, rfl⟩ := runsInside
      exact .nothing rfl rfl
  | ok sessionDir =>
      obtain ⟨_, inside, late, closing, runsCaught, rfl, runsClosing⟩ :=
        Action.runs_run_bind runsInside
      obtain ⟨ended, rfl, runsSession⟩ := Action.runs_run_lift runsCaught
      obtain ⟨_, removing, cleared, _, runsRemoval, rfl, runsReturn⟩ :=
        Action.runs_run_bind runsClosing
      obtain ⟨_, rfl, runsRemoved⟩ := Action.runs_run_lift runsRemoval
      obtain ⟨given, rfl, returned⟩ := runs_attempt runsReturn
      cases returned
      have same : ended.mapError id = ended := by cases ended <;> rfl
      rw [Turn.transcript_append, same]
      refine .append ((tells_session isLog runsSession).mono
        fun one told announces => ?_) ?_
      · simpa using (told announces).around (early ++ opening) removing
      · obtain ⟨_, rfl⟩ := Action.world_of_runs runsRemoved
        exact .nothing rfl rfl

/-- Timings are announced at the end of a run only where they come from
somewhere: a run of the timing program put there what is at their path, or it
stood there already when the timing began, or it is a directory that was made on
the way to that of the timings.  So with nothing at the path at first, and the
path not on that way, the announced timings are those of this run. -/
theorem announced_timings_come_from
    (isLog : NamedLog journal)
    (runs : (task.perform journal config verbosity).run.Runs scene.turnwise tree
      result turns last) :
    ∃ said, Utters journal said (Turn.transcript turns) ∧
      ∀ one ∈ said, AnnouncesExport one -> Announced scene task journal
        (task.harnessOptions config verbosity) result turns one := by
  rw [RunTask.perform_eq_seek] at runs
  obtain ⟨sought, early, first, late, runsSeek, rfl, runsOn⟩ :=
    Action.runs_run_bind runs
  rw [Turn.transcript_append]
  refine Tells.append (tells_of_remarks task (RunTask.speaks_seek config)
    (Scene.yields_of_runs runsSeek)) ?_
  cases sought with
  | error failure =>
      obtain ⟨rfl, rfl, rfl⟩ := runsOn
      exact .nothing rfl rfl
  | ok found =>
      refine (tells_after_seek isLog runsOn).mono fun one told announces => ?_
      simpa using (told announces).around early []

end Runs

/-! ### Timings of this session and of an earlier one -/

namespace OneExport

/-- The journal's line for the announcement. -/
def announced : Addition where
  file := ⟨"/tmp/bench-ripenv.log"⟩
  content := (Journal.line ""
    "INFO lock-noop results: /new/out/lock-noop.json").toUTF8

/-- What comes of a run, turn by turn. -/
def ran
    (processes : Scene.Processes)
    (tree : FileTree) : Except Failure Summary × List Turn × FileTree :=
  (task.perform journal {} 0).run.on (Scene.turnHost processes) tree

theorem runs_ran
    (processes : Scene.Processes)
    (tree : FileTree) :
    (task.perform journal {} 0).run.Runs (Scene.acting processes).turnwise tree
      (ran processes tree).1 (ran processes tree).2.1
      (ran processes tree).2.2 :=
  Action.runs_on (Scene.possible_turnHost processes) _ tree

theorem namedLog : NamedLog journal := by
  rintro file ⟨⟩
  exact ⟨⟨"/tmp"⟩, rfl⟩

/-- A timing program that fails and leaves all files alone. -/
def failing : Scene.Processes := fun launch tree =>
  match launch.workingDir with
  | some _ => (.ok (.code 0), tree)
  | none => (.ok (.code 1), tree)

/-- Files with the timings of an earlier session. -/
def usedFiles : FileTree :=
  ⟨[(["new"], .directory), (["new", "out"], .directory),
    (["new", "out", "lock-noop.json"], .file .empty false)] ++ files.nodes⟩

/-- The timing program of the task. -/
def harness : Harness :=
  ⟨⟨"/bin/hyperfine"⟩, task.harnessOptions {} 0⟩

end OneExport

/-- Timings that were written by the run itself are announced. -/
theorem announced_timings_come_from_oneExport :
    let ran := OneExport.ran OneExport.processes OneExport.files
    OneExport.announced ∈ additions (Turn.transcript ran.2.1) ∧
      ∃ said, Utters OneExport.journal said (Turn.transcript ran.2.1) ∧
        ∀ one ∈ said, AnnouncesExport one ->
          Announced (Scene.acting OneExport.processes) OneExport.task
            OneExport.journal (OneExport.task.harnessOptions {} 0) ran.1 ran.2.1
            one :=
  ⟨by decide +kernel, announced_timings_come_from OneExport.namedLog
    (OneExport.runs_ran _ _)⟩

/-- Timings of an earlier session are announced although the timing program
failed in this one and has left all files alone. -/
theorem earlier_timings_announced :
    let ran := OneExport.ran OneExport.failing OneExport.usedFiles
    (OneExport.task.perform OneExport.journal {} 0).run.Runs
        (Scene.acting OneExport.failing).turnwise OneExport.usedFiles ran.1
        ran.2.1 ran.2.2 ∧
      ran.1.map (fun summary => summary.outcomes.map Outcome.succeeded) =
        .ok [false] ∧
      OneExport.announced ∈ additions (Turn.transcript ran.2.1) ∧
      ∀ turn ∈ ran.2.1, IsTiming OneExport.harness turn ->
        turn.after = turn.before := by
  refine ⟨OneExport.runs_ran _ _, by decide +kernel, by decide +kernel, ?_⟩
  rintro turn isTurn ⟨group, ended, exchange_eq⟩
  have allows := Scene.allows_of_mem (OneExport.runs_ran _ _) isTurn
  rw [exchange_eq] at allows
  exact congrArg Prod.snd allows

end Session
end LockBench
