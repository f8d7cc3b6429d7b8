import LockBench.Proofs.Host.Programs
import LockBench.Proofs.Session.Conduct

/-!
# The timing program that was chosen

A path that is chosen for the timing program is looked at before anything is
timed, and where it leads nowhere nothing is.  Every group of the session is
timed by a program of that path.  With a slash in it, this is the file that was
looked at; without one, it is looked for in the search path instead.
-/

namespace LockBench

open LockBench.Action

/-- The process that an exchange attends, if it attends one. -/
def Exchange.attended? : Exchange -> Option Launch
  | ⟨.attend launch, _⟩ => some launch
  | _ => none

/-- The processes of a transcript that are attended, in order. -/
def attended (transcript : List Exchange) : List Launch :=
  transcript.filterMap Exchange.attended?

@[simp] theorem attended_append (early late : List Exchange) :
    attended (early ++ late) = attended early ++ attended late :=
  List.filterMap_append

/-- A request that attends no process, or an allowed one. -/
def Request.Attends (allowed : Launch -> Prop) : Request -> Prop
  | .attend launch => allowed launch
  | _ => True

variable {allowed : Launch -> Prop} {transcript : List Exchange}

/-! ## What actions attend -/

namespace Action

/-- The exchanges of a transcript are about what was asked. -/
theorem AsksOnly.asked_of_mem
    {asked : Request -> Prop}
    {action : Action α}
    {result : α}
    (asks : action.AsksOnly asked)
    (yields : action.Yields transcript result) :
    ∀ exchange ∈ transcript, asked exchange.1 := by
  induction yields with
  | done result => simp
  | ask answer continued inductionHypothesis =>
      rw [List.forall_mem_cons]
      exact ⟨asks.1, inductionHypothesis (asks.2 answer)⟩

/-- Only allowed processes are attended. -/
theorem AsksOnly.allowed_of_mem
    {action : Action α}
    {result : α}
    (asks : action.AsksOnly (Request.Attends allowed))
    (yields : action.Yields transcript result) :
    ∀ launch ∈ attended transcript, allowed launch := by
  intro launch isAttended
  obtain ⟨⟨request, answer⟩, present, isAbout⟩ :=
    List.mem_filterMap.mp isAttended
  have isAsked := asks.asked_of_mem yields _ present
  cases request <;> cases isAbout
  exact isAsked

end Action

theorem Journal.Asks.attends
    {journal : Journal}
    {request : Request}
    (asks : journal.Asks request) : request.Attends allowed := by
  cases asks <;> trivial

/-- Looking for things attends no process. -/
theorem AsksToFind.attends
    {journal : Journal}
    {request : Request}
    (asks : AsksToFind journal request) : request.Attends allowed := by
  cases asks with
  | note noted => exact noted.attends
  | _ => trivial

theorem Suite.AsksForManifest.attends
    {suite : Suite}
    {source : Path}
    {request : Request}
    (asks : suite.AsksForManifest source request) :
    request.Attends allowed := by
  cases asks <;> trivial

/-- Seeding a suite attends no process. -/
theorem Suite.AsksToSeed.attends
    {suite : Suite}
    {journal : Journal}
    {source : Path}
    {request : Request}
    (asks : suite.AsksToSeed journal source request) :
    request.Attends allowed := by
  cases asks with
  | note noted => exact noted.attends
  | makeDirs isDir => trivial
  | manifest asked => exact asked.attends
  | lock => trivial

theorem Fixture.Asks.attends
    {sessionDir : Path}
    {fixture : Fixture}
    {request : Request}
    (asks : Fixture.Asks sessionDir fixture request) : request.Attends allowed := by
  cases asks <;> trivial

theorem RunTask.AsksToReport.attends
    {journal : Journal}
    {request : Request}
    (asks : AsksToReport journal request) : request.Attends allowed := by
  cases asks with
  | note noted => exact noted.attends
  | kind path => trivial

theorem attends_note
    (journal : Journal)
    (entry : Entry) :
    (journal.note entry).AsksOnly (Request.Attends allowed) :=
  (asksOnly_note journal entry).mono fun _ asks => asks.attends

/-! ## What a session attends -/

namespace RunTask

/-- A process that times a group by a program. -/
def TimedBy
    (harness : Harness)
    (launch : Launch) : Prop :=
  ∃ group, launch = harness.launch group

/-- A session attends the timing program only. -/
theorem attends_session
    (task : RunTask)
    (journal : Journal)
    (config : Config)
    (verbosity : Nat)
    (fixture : Fixture)
    (tools : List (Tool × List Path))
    (hyperfine sessionDir : Path) :
    (task.session journal config verbosity fixture tools hyperfine
      sessionDir).run.AsksOnly (Request.Attends
        (TimedBy ⟨hyperfine, task.harnessOptions config verbosity⟩)) := by
  have times : ∀ suites, (Session.timeGroups journal
      (Harness.time ⟨hyperfine, task.harnessOptions config verbosity⟩ journal)
      suites task.chosenOperations).AsksOnly (Request.Attends
        (TimedBy ⟨hyperfine, task.harnessOptions config verbosity⟩)) := by
    intro suites
    refine (Session.asksOnly_timeGroups _ _ _ _).mono fun request asks => ?_
    cases asks with
    | note noted => exact noted.attends
    | makeDirs isDir => trivial
    | attend isAsked collected => exact ⟨_, rfl⟩
  exact .run_bind (.run_lift (attends_note _ _)) fun _ =>
    .run_bind (asksOnly_attempt ((asksOnly_materialize _ _).mono
      fun _ asks => asks.attends)) fun pipfile =>
    .run_bind ((asksOnly_seedAll _ _ _).mono fun _ ⟨_, _, asks⟩ =>
      asks.attends) fun _ =>
    .run_bind (.run_lift (asksOnly_request trivial)) fun _ =>
    .run_bind (asksOnly_attempt (times _)) fun summary =>
    .run_bind (.run_lift ((asksOnly_reportSummary _ _).mono
      fun _ asks => asks.attends)) fun _ => asksOnly_pure _

/-- What follows the search of a run attends the timing program that was found
only. -/
theorem attends_after_seek
    (task : RunTask)
    (journal : Journal)
    (config : Config)
    (verbosity : Nat)
    (found : Found) :
    (do
      if (withBinaries found.tools).isEmpty then throw .noTools
      let parent ← temporaryDir
      let sessionDir ← Attempt.lift .io
        (Action.makeFreshDir parent "bench-ripenv-")
      let result ← ExceptT.lift (task.session journal config verbosity
        found.fixture (withBinaries found.tools) found.hyperfine
        sessionDir).run
      Action.removeTree sessionDir
      Attempt.lift id (pure result) : Attempt Summary).run.AsksOnly
        (Request.Attends (TimedBy (found.harness task config verbosity))) := by
  have looks : temporaryDir.AsksOnly
      (Request.Attends (TimedBy (found.harness task config verbosity))) :=
    asksOnly_temporaryDir (fun _ => trivial) trivial
  split
  · exact asksOnly_pure _
  · exact .run_bind looks.run_lift fun parent =>
      .run_bind (asksOnly_attempt (asksOnly_request trivial)) fun sessionDir =>
      .run_bind (.run_lift (attends_session _ _ _ _ _ _ _ _)) fun result =>
      .run_bind (.run_lift (asksOnly_request trivial)) fun _ =>
      asksOnly_attempt (asksOnly_pure result)

/-! ## The program that was chosen -/

section Chosen

variable {task : RunTask} {journal : Journal} {config : Config}
  {chosen : Path}

/-- A path that is chosen and accepted leads somewhere. -/
theorem checked_of_yields
    {found : Path}
    (yields : (Discovery.findHyperfine (some chosen)).Yields transcript
      (.ok found)) :
    found = chosen ∧ ∃ kind, ⟨.kind chosen, some kind⟩ ∈ transcript := by
  obtain ⟨isThere, early, _, looked, ended, rfl⟩ := yields_bind_iff.mp yields
  obtain ⟨answer, _, _, asked, returned, rfl⟩ := yields_bind_iff.mp looked
  obtain rfl := yields_request_iff.mp asked
  obtain ⟨rfl, rfl⟩ := yields_pure_iff.mp returned
  cases answer with
  | none =>
      obtain ⟨-, ⟨⟩⟩ := yields_pure_iff.mp ended
  | some kind =>
      obtain ⟨rfl, found_eq⟩ := yields_pure_iff.mp ended
      exact ⟨Except.ok.inj found_eq, kind, by simp⟩

/-- A search that finds everything has looked at the path that was chosen. -/
theorem checked_of_seek
    (isChosen : task.hyperfine.or (config.hyperfinePath.map Path.mk) =
      some chosen)
    {found : Found}
    (yields : (task.seek journal config).run.Yields transcript (.ok found)) :
    found.hyperfine = chosen ∧
      ∃ kind, ⟨.kind chosen, some kind⟩ ∈ transcript := by
  rw [seek, yields_run_bind_iff] at yields
  obtain ⟨_, -, ⟨⟩⟩ | ⟨fixture, early, _, -, searched, rfl⟩ := yields
  obtain ⟨tools, middle, _, -, located, rfl⟩ :=
    yields_run_lift_bind_iff.mp searched
  rw [yields_run_bind_iff] at located
  obtain ⟨_, -, ⟨⟩⟩ | ⟨hyperfine, late, _, isFound, ended, rfl⟩ := located
  obtain ⟨rfl, found_eq⟩ := yields_run_pure_iff.mp ended
  cases found_eq
  rw [isChosen, Session.yields_attempt_iff] at isFound
  obtain ⟨answer, asked, succeeded⟩ := isFound
  cases answer with
  | error failure => cases succeeded
  | ok path =>
      obtain rfl := Except.ok.inj succeeded
      obtain ⟨rfl, kind, present⟩ := checked_of_yields asked
      exact ⟨rfl, kind, by simp [present]⟩

/-- A path that is chosen is looked at before anything is timed, and every
group of the session is timed by a program of that path.  With a slash in it,
that is the file it leads to from where the run was started, whatever the
search path is; without one, it is a file in the search path. -/
theorem chosen_program_times
    (isChosen : task.hyperfine.or (config.hyperfinePath.map Path.mk) =
      some chosen)
    {verbosity : Nat}
    {result : Except Failure Summary}
    (runs : (task.perform journal config verbosity).run.Yields transcript
      result)
    {launch : Launch}
    (isAttended : launch ∈ attended transcript) :
    (∃ early late kind, transcript = early ++ late ∧ attended early = [] ∧
      ⟨.kind chosen, some kind⟩ ∈ early) ∧
    TimedBy ⟨chosen, task.harnessOptions config verbosity⟩ launch ∧
    ∀ machine : Machine, ∀ location,
      ('/' ∈ chosen.text.toList ->
        (machine.Executes launch location ↔
          Machine.holdsNul launch = false ∧
            machine.NamesProgram machine.workingDir chosen location)) ∧
      ('/' ∉ chosen.text.toList -> machine.Executes launch location ->
        ∃ entry ∈ machine.searchPath, machine.NamesProgram machine.workingDir
          (Machine.searched chosen.text entry) location) := by
  have quietSearch : ∀ {search found},
      (task.seek journal config).run.Yields search found ->
        attended search = [] := by
    intro search found yields
    have attendsNone : ∀ launch ∈ attended search, False :=
      ((asksOnly_seek task journal config).mono fun _ asks =>
        asks.attends).allowed_of_mem yields
    exact List.eq_nil_iff_forall_not_mem.mpr attendsNone
  rw [perform_eq_seek, yields_run_bind_iff] at runs
  obtain ⟨failure, searched, rfl⟩ |
      ⟨found, search, rest, searched, goesOn, rfl⟩ := runs
  · rw [quietSearch searched] at isAttended
    cases isAttended
  obtain ⟨found_eq, kind, looked⟩ := checked_of_seek isChosen searched
  rw [attended_append, quietSearch searched, List.nil_append] at isAttended
  obtain ⟨group, launch_eq⟩ := (attends_after_seek task journal config
    verbosity found).allowed_of_mem goesOn launch isAttended
  obtain rfl := launch_eq
  rw [Found.harness, found_eq]
  refine ⟨⟨search, rest, kind, rfl, quietSearch searched, looked⟩,
    ⟨group, rfl⟩, fun machine location => ⟨fun slash => ?_,
      fun noSlash executes => ?_⟩⟩
  · rw [Machine.executes_iff_of_slash slash]
    exact and_congr_right fun _ => exists_eq_left
  · obtain ⟨_, rfl, inSearchPath⟩ :=
      Machine.executes_of_search noSlash executes
    exact inSearchPath

end Chosen

/-! ## Runs with and without a slash -/

namespace Chosen

/-- A run with a timing program that is chosen by path. -/
def task (hyperfine : Path) : RunTask where
  fixture := "/Pipfile"
  tools := { ripenv := true }
  paths := { ripenv := ["/bin/ripenv"] }
  operations := [.lockNoop]
  hyperfine := some hyperfine

/-- The run on a host that finds every path, with a program in the directory
where it was started. -/
def ran : Except Failure Summary × List Exchange × FileTree :=
  ((task ⟨"./hyperfine"⟩).perform {} {} 0).run.on Session.Obstructed.host .empty

/-- A machine with a timing program in a directory and another one where it
works. -/
def machine (searchPath : String) : Machine where
  tree := ⟨[(["Pipfile"], .file .empty false),
    (["bin"], .directory),
    (["bin", "hyperfine"], .file .empty true),
    (["bin", "ripenv"], .file .empty true),
    (["tmp"], .directory),
    (["work"], .directory),
    (["work", "hyperfine"], .file .empty true)]⟩
  workingDir := ["work"]
  environment := [("PATH", searchPath)]
  behavior := fun _ => some fun _ _ tree => (⟨.code 0, .empty, .empty⟩, tree)
  time := ""
  freshNames := ["0"]

/-- The run on the machine with a path that has no slash. -/
def ended (searchPath : String) : Except Failure Summary × Machine :=
  ((task ⟨"hyperfine"⟩).perform {} {} 0).run.runOn (machine searchPath)

end Chosen

/-- With a slash, the program that was looked at times the group. -/
theorem chosen_program_times_here :
    (Chosen.task ⟨"./hyperfine"⟩).hyperfine.or (Option.map Path.mk none) =
        some ⟨"./hyperfine"⟩ ∧
      ((Chosen.task ⟨"./hyperfine"⟩).perform {} {} 0).run.Yields
        Chosen.ran.2.1 Chosen.ran.1 ∧
      ∃ launch, attended Chosen.ran.2.1 = [launch] ∧
        (∃ early late kind, Chosen.ran.2.1 = early ++ late ∧
          attended early = [] ∧
          ⟨.kind ⟨"./hyperfine"⟩, some kind⟩ ∈ early) ∧
        ∀ (machine : Machine) location,
          machine.Executes launch location ↔
            machine.NamesProgram machine.workingDir ⟨"./hyperfine"⟩
              location := by
  have isChosen :
      (Chosen.task ⟨"./hyperfine"⟩).hyperfine.or (Option.map Path.mk none) =
        some ⟨"./hyperfine"⟩ := rfl
  have runs : ((Chosen.task ⟨"./hyperfine"⟩).perform {} {} 0).run.Yields
      Chosen.ran.2.1 Chosen.ran.1 := by
    rw [Chosen.ran]
    exact Action.yields_on (fun _ _ => rfl) _ .empty
  obtain ⟨launch, attended_eq⟩ :
      ∃ launch, attended Chosen.ran.2.1 = [launch] :=
    ⟨(attended Chosen.ran.2.1).headD default, by decide +kernel⟩
  have noNul : ∀ launch ∈ attended Chosen.ran.2.1,
      Machine.holdsNul launch = false := by
    decide +kernel
  have isAttended : launch ∈ attended Chosen.ran.2.1 := by simp [attended_eq]
  obtain ⟨looked, -, executes⟩ :=
    chosen_program_times isChosen runs isAttended
  refine ⟨isChosen, runs, launch, attended_eq, looked, ?_⟩
  intro machine location
  rw [(executes machine location).1 (by decide)]
  exact and_iff_right (noNul launch isAttended)

/-- Without a slash, a path is accepted for the program that it names from
where the run was started, but another one times the group, or none where the
search path has none. -/
theorem chosen_program_times_not :
    (∀ searchPath, (Chosen.machine searchPath).NamesProgram ["work"]
      ⟨"hyperfine"⟩ ["work", "hyperfine"]) ∧
      ((Discovery.findHyperfine (some ⟨"hyperfine"⟩)).runOn
        (Chosen.machine "/bin")).1 = .ok ⟨"hyperfine"⟩ ∧
      (Chosen.ended "/bin").1.isOk = true ∧
      (Chosen.ended "/bin").2.calls.map Call.program =
        [⟨"/bin/ripenv"⟩, ⟨"/bin/hyperfine"⟩] ∧
      (Chosen.ended "/none").1 =
        .error (.harness (.start ⟨"hyperfine"⟩ .noSuchFile)) := by
  have names : ∀ searchPath, (Chosen.machine searchPath).NamesProgram ["work"]
      ⟨"hyperfine"⟩ ["work", "hyperfine"] :=
    fun _ => ⟨_, _, (FileTree.find_eq_ok_iff _ _ _ _ _).mp rfl, rfl⟩
  exact ⟨names, by decide +kernel, by decide +kernel, by decide +kernel,
    by decide +kernel⟩

end RunTask
end LockBench
