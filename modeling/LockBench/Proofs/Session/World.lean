import LockBench.Proofs.Host.Runs
import LockBench.Proofs.Session.Launches
import LockBench.Proofs.Shell.Removal
import LockBench.Session.Harness

/-!
# The world of a session

What programs do is not fixed.  A tool that succeeds takes one state of the
files to another.  The timing program takes the commands of a group one after
another; it runs the preparation of a command before each of its runs, where
the group has preparations at all, and gives up where one of them fails.  The
files themselves change as the requests say.
-/

namespace LockBench

/-- A number of timed runs is one that was asked for. -/
def RunCount.Admits : RunCount -> Nat -> Prop
  | .atLeast least, count => least ≤ count
  | .exactly exact, count => count = exact

namespace Session

/-- The start of a run of a command. -/
structure Moment where
  /-- The operation of its group. -/
  operation : Operation
  /-- The command. -/
  command : Command
  /-- Whether the run is timed, or one that comes before the timed ones. -/
  timed : Bool
  /-- The files at that moment. -/
  tree : FileTree

/-- What processes that succeed make of the files. -/
abbrev Programs := Launch -> FileTree -> FileTree -> Prop

/-! ## The plan of the timing program -/

/-- What the timing program does. -/
inductive Job
  | prepare (line : String)
  | invoke (command : Command) (timed : Bool)
  deriving DecidableEq, Repr

/-- One run of a command of a group, with its preparation. -/
def once
    (group : Group)
    (run : Command × Bool) : List Job :=
  (if group.anyPrepare then
    [.prepare (run.1.prepare.getD Harness.idle)]
  else []) ++ [.invoke run.1 run.2]

/-- The runs of the commands of a group.  For every command, those that are
not timed come first; how many are timed depends on its position. -/
def runsOf
    (group : Group)
    (warmup : Nat)
    (count : Nat -> Nat) : List (Command × Bool) :=
  (group.commands.mapIdx fun index command =>
    (List.replicate warmup false ++ List.replicate (count index) true).map
      (command, ·)).flatten

theorem mem_of_mem_runsOf
    {group : Group}
    {warmup : Nat}
    {count : Nat -> Nat}
    {run : Command × Bool}
    (present : run ∈ runsOf group warmup count) :
    run.1 ∈ group.commands := by
  rw [runsOf, List.mem_flatten] at present
  obtain ⟨runs, member, inRuns⟩ := present
  rw [List.mem_mapIdx] at member
  obtain ⟨index, inRange, rfl⟩ := member
  rw [List.mem_map] at inRuns
  obtain ⟨timed, _, rfl⟩ := inRuns
  exact List.getElem_mem inRange

/-! ## What becomes of the files -/

/-- Processes run one after another and all succeed. -/
inductive Succeed
    (programs : Programs) : List Launch -> FileTree -> FileTree -> Prop
  | done (tree : FileTree) : Succeed programs [] tree tree
  | next
      {launch : Launch}
      {rest : List Launch}
      {tree middle last : FileTree}
      (first : programs launch tree middle)
      (later : Succeed programs rest middle last) :
      Succeed programs (launch :: rest) tree last

/-- The timing program does what is planned for a group, and every tool that
it runs succeeds.  It stops at a preparation that fails; nothing is said of
what becomes of the files then, nor after a line that is no list of
commands. -/
inductive Works
    (programs : Programs)
    (workingDir : Location)
    (operation : Operation) :
    List Job -> FileTree -> List Moment -> FileTree -> Prop
  | done (tree : FileTree) : Works programs workingDir operation [] tree [] tree
  | prepare
      {line : String}
      {rest : List Job}
      {tree middle last : FileTree}
      {moments : List Moment}
      (prepared : Shell.run? workingDir tree line = some middle)
      (later : Works programs workingDir operation rest middle moments last) :
      Works programs workingDir operation (.prepare line :: rest) tree moments
        last
  | stop
      {line : String}
      {rest : List Job}
      {tree last : FileTree}
      (fails : Shell.run? workingDir tree line = none) :
      Works programs workingDir operation (.prepare line :: rest) tree [] last
  | invoke
      {command : Command}
      {timed : Bool}
      {rest : List Job}
      {launches : List Launch}
      {tree middle last : FileTree}
      {moments : List Moment}
      (read : Shell.launches? command.shellLine = some launches)
      (succeed : Succeed programs launches tree middle)
      (later : Works programs workingDir operation rest middle moments last) :
      Works programs workingDir operation (.invoke command timed :: rest) tree
        (⟨operation, command, timed, tree⟩ :: moments) last
  | unread
      {command : Command}
      {timed : Bool}
      {rest : List Job}
      {tree last : FileTree}
      (unread : Shell.launches? command.shellLine = none) :
      Works programs workingDir operation (.invoke command timed :: rest) tree
        [⟨operation, command, timed, tree⟩] last

section Works

variable {programs : Programs} {workingDir : Location} {operation : Operation}
  {rest : List Job} {tree prepared last : FileTree} {moments : List Moment}

/-- A preparation that succeeds is followed by the rest of the plan. -/
theorem Works.of_prepare
    {line : String}
    (works : Works programs workingDir operation (.prepare line :: rest) tree
      moments last)
    (prepares : Shell.run? workingDir tree line = some prepared) :
    Works programs workingDir operation rest prepared moments last := by
  cases works with
  | prepare preparedAs later =>
      rw [prepares, Option.some.injEq] at preparedAs
      subst preparedAs
      exact later
  | stop fails => simp [prepares] at fails

/-- A run of a line that is read starts the processes of the line. -/
theorem Works.of_invoke
    {command : Command}
    {timed : Bool}
    {launches : List Launch}
    (works : Works programs workingDir operation
      (.invoke command timed :: rest) tree moments last)
    (read : Shell.launches? command.shellLine = some launches) :
    ∃ middle later, Succeed programs launches tree middle ∧
      Works programs workingDir operation rest middle later last ∧
      moments = ⟨operation, command, timed, tree⟩ :: later := by
  cases works with
  | invoke readAs succeed later =>
      rw [read, Option.some.injEq] at readAs
      subst readAs
      exact ⟨_, _, succeed, later, rfl⟩
  | unread notRead => simp [read] at notRead

/-- One run of a command whose preparation succeeds and whose line is read
starts the processes of the line on the prepared files. -/
theorem Works.of_once
    {group : Group}
    {run : Command × Bool}
    {launches : List Launch}
    (works : Works programs workingDir operation (once group run ++ rest) tree
      moments last)
    (prepares : Shell.run? workingDir tree
      (run.1.prepare.getD Harness.idle) = some prepared)
    (unprepared : group.anyPrepare = false -> prepared = tree)
    (read : Shell.launches? run.1.shellLine = some launches) :
    ∃ middle later, Succeed programs launches prepared middle ∧
      Works programs workingDir operation rest middle later last ∧
      moments = ⟨operation, run.1, run.2, prepared⟩ :: later := by
  cases any : group.anyPrepare with
  | false =>
      obtain rfl := unprepared any
      simp only [once, any, Bool.false_eq_true, if_false, List.nil_append,
        List.singleton_append] at works
      exact works.of_invoke read
  | true =>
      simp only [once, any, if_true, List.cons_append,
        List.nil_append] at works
      exact (works.of_prepare prepares).of_invoke read

end Works

/-- The timing program times a group: it works through its plan, and it may
write the timings where it was told to. -/
def Times
    (programs : Programs)
    (workingDir : Location)
    (harness : Harness)
    (group : Group)
    (tree : FileTree)
    (moments : List Moment)
    (last : FileTree) : Prop :=
  ∃ count middle,
    (∀ index, harness.options.runs.Admits (count index)) ∧
      Works programs workingDir group.operation
        ((runsOf group harness.options.warmup count).flatMap (once group))
        tree moments middle ∧
      (last = middle ∨ ∃ path content,
        harness.exportPath? group.operation = some path ∧
          middle.write workingDir path content = .ok last)

/-- The answer and the files that come of a change that may fail. -/
def Takes
    (changed : Except OsError FileTree)
    (tree : FileTree)
    (answer : Except OsError Unit)
    (last : FileTree) : Prop :=
  match changed with
  | .ok done => answer = .ok () ∧ last = done
  | .error cause => answer = .error cause ∧ last = tree

theorem Takes.eq_or_ok
    {changed : Except OsError FileTree}
    {tree last : FileTree}
    {answer : Except OsError Unit}
    (takes : Takes changed tree answer last) :
    last = tree ∨ changed = .ok last := by
  cases changed with
  | error cause => exact .inl takes.2
  | ok done => exact .inr (by rw [takes.2])

/-- The world of a session: file trees, tools, and a timing program that times
the groups of some suites. -/
def world
    (programs : Programs)
    (workingDir : Location)
    (harness : Harness)
    (suites : List Suite) : World Moment
  | .workingDir, tree, answer, moments, last =>
    answer.isAbsolute = true ∧ moments = [] ∧ last = tree
  | .read path, tree, answer, moments, last =>
    answer = tree.read workingDir path ∧ moments = [] ∧ last = tree
  | .write path content, tree, answer, moments, last =>
    Takes (tree.write workingDir path content) tree answer last ∧ moments = []
  | .append path content, tree, answer, moments, last =>
    Takes (tree.append workingDir path content) tree answer last ∧ moments = []
  | .copy source target, tree, answer, moments, last =>
    Takes (tree.copy workingDir source target) tree answer last ∧ moments = []
  | .makeDirs path, tree, answer, moments, last =>
    Takes (tree.makeDirs workingDir path) tree answer last ∧ moments = []
  | .removeFile path, tree, answer, moments, last =>
    Takes (tree.removeFile workingDir path) tree answer last ∧ moments = []
  | .makeFreshDir parent stem, tree, answer, moments, last =>
    moments = [] ∧
      match answer with
      | .error _ => last = tree
      | .ok path => (∃ ending, path = parent.join (stem ++ ending)) ∧
          tree.makeDir workingDir path = .ok last
  | .removeTree path, tree, _, moments, last =>
    moments = [] ∧ last = tree.removeTree workingDir path
  | .capture launch, tree, answer, moments, last =>
    moments = [] ∧
      match answer with
      | .error _ => last = tree
      | .ok captured => captured.exit.succeeded = true ->
          programs launch tree last
  | .attend launch, tree, answer, moments, last =>
    match answer with
    | .error _ => moments = [] ∧ last = tree
    | .ok _ => ∀ operation group, Group.collect? suites operation = some group ->
        launch = harness.launch group ->
          Times programs workingDir harness group tree moments last
  | _, tree, _, moments, last => moments = [] ∧ last = tree

end Session
end LockBench
