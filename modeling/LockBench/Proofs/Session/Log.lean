import LockBench.Journal
import LockBench.Proofs.Host.Scopes
import LockBench.Proofs.Host.Written
import Mathlib.Data.List.Infix
import Mathlib.Data.List.Forall2

/-!
# The log of a journal is complete

The calls of a journal are notes, kept output, the silent end of a longer piece
of work, and further starts of a log.  What a call does to a machine is a
function of the machine, in which the verbosity only decides what is written to
the standard error.  So the log holds a line for each record of the calls since
it was started, in their order, and more verbosity shows more of the same calls
and changes nothing else.
-/

namespace LockBench
namespace Journal

/-! ## Calls -/

/-- The entry for the end of a process. -/
def entryOf
    (name : String)
    (captured : Captured) : Entry :=
  .captured name captured.exit.code? (Text.decodeLossy captured.stdout)
    (Text.decodeLossy captured.stderr)

/-- A call of a journal. -/
inductive Call
  /-- Something is noted. -/
  | note (entry : Entry)
  /-- The end of a process is kept. -/
  | capture (name : String) (captured : Captured)
  /-- A longer piece of work ends without a message. -/
  | stopProgress
  /-- A log is started in a directory. -/
  | start (verbosity : Nat) (dir : Path)

/-- What is noted by a call, if anything. -/
def Call.entry? : Call -> Option Entry
  | .note entry => some entry
  | .capture name captured => some (entryOf name captured)
  | .stopProgress => none
  | .start _ _ => none

/-- What comes of starting a log, where a call does so. -/
abbrev Reply := Option (Except OsError Path)

/-- Carry out a call. -/
def call
    (journal : Journal) : Call -> Action (Reply × Journal)
  | .note entry => do
    journal.note entry
    return (none, journal)
  | .capture name captured => do
    journal.note (entryOf name captured)
    return (none, journal)
  | .stopProgress => return (none, journal)
  | .start verbosity dir => do
    let (outcome, journal) ← journal.start verbosity dir
    return (some outcome, journal)

/-- Carry out calls one after another. -/
def follow
    (journal : Journal) : List Call -> Action (List Reply × Journal)
  | [] => return ([], journal)
  | call :: rest => do
    let (reply, journal) ← journal.call call
    let (replies, journal) ← follow journal rest
    return (reply :: replies, journal)

/-! ## What calls do to a machine -/

/-- The files after a record was added to the log. -/
def addRecord
    (file : Option Path)
    (workingDir : Location)
    (time : String)
    (tree : FileTree)
    (record : String) : FileTree :=
  match file with
  | none => tree
  | some file =>
    match tree.append workingDir file (line time record).toUTF8 with
    | .error _ => tree
    | .ok after => after

/-- The files after a log of an earlier session was removed. -/
def cleared
    (workingDir : Location)
    (file : Path)
    (tree : FileTree) : FileTree :=
  match tree.removeFile workingDir file with
  | .error _ => tree
  | .ok after => after

section Runs

variable (journal : Journal) (machine : Machine)

theorem runOn_record (record : String) :
    (journal.record record).runOn machine =
      ((), { machine with
        tree := addRecord journal.file machine.workingDir machine.time
          machine.tree record }) := by
  rw [Journal.record]
  cases journal.file with
  | none => rfl
  | some file =>
      dsimp only [addRecord]
      rw [Action.runOn_bind, Action.runOn_discard, Action.runOn_appendText]
      change ((), (machine.keep (machine.tree.append machine.workingDir file
        (line machine.time record).toUTF8)).2) = _
      cases machine.tree.append machine.workingDir file
        (line machine.time record).toUTF8 <;> rfl

theorem runOn_records (records : List String) :
    (records.forM journal.record).runOn machine =
      ((), { machine with
        tree := records.foldl (addRecord journal.file machine.workingDir
          machine.time) machine.tree }) := by
  induction records generalizing machine with
  | nil => rfl
  | cons record rest inductionHypothesis =>
      change (journal.record record >>= fun _ =>
        rest.forM journal.record).runOn machine = _
      rw [Action.runOn_bind, runOn_record, inductionHypothesis]
      rfl

theorem runOn_emit_print (text : String) :
    (emit Action.print text).runOn machine = ((), machine.wrote text "") := by
  rw [emit]
  split
  · rename_i isEmpty
    have text_eq : text = "" := by simpa using isEmpty
    simp [text_eq, Machine.wrote]
  · rfl

theorem runOn_emit_printError (text : String) :
    (emit Action.printError text).runOn machine =
      ((), machine.wrote "" text) := by
  rw [emit]
  split
  · rename_i isEmpty
    have text_eq : text = "" := by simpa using isEmpty
    simp [text_eq, Machine.wrote]
  · rfl

/-- The machine after an entry was noted. -/
def noted (entry : Entry) : Machine :=
  { machine with
    tree := entry.records.foldl
      (addRecord journal.file machine.workingDir machine.time) machine.tree
    stdout := machine.stdout ++ entry.stdout journal.colored
    stderr := machine.stderr ++
      entry.stderr journal.verbosity journal.colored }

theorem runOn_display (entry : Entry) :
    (journal.display entry).runOn machine =
      ((), machine.wrote (entry.stdout journal.colored)
        (entry.stderr journal.verbosity journal.colored)) := by
  rw [display, Action.runOn_bind, runOn_emit_print]
  dsimp only
  rw [runOn_emit_printError]
  simp [Machine.wrote]

/-- A note adds its records to the log and writes its texts to the console. -/
theorem runOn_note (entry : Entry) :
    (journal.note entry).runOn machine = ((), journal.noted machine entry) := by
  rw [Journal.note]
  split
  · rw [Action.runOn_bind, runOn_display]
    dsimp only
    rw [runOn_records]
    rfl
  · rw [Action.runOn_bind, runOn_records]
    dsimp only
    rw [runOn_display]
    rfl

/-- What starting a log comes to, and the machine after it. -/
def started
    (verbosity : Nat)
    (dir : Path) : (Except OsError Path × Journal) × Machine :=
  match machine.tree.makeDirs machine.workingDir dir with
  | .error cause =>
    ((.error cause, { journal with verbosity }), { machine with
      tree := machine.tree.leftByDirs machine.workingDir dir })
  | .ok made =>
    let file := dir.join fileName
    ((.ok file, { journal with verbosity, file := some file }),
      { machine with tree := cleared machine.workingDir file made })

/-- A log is started in a directory that can be made, after what was there was
removed. -/
theorem runOn_start
    (verbosity : Nat)
    (dir : Path) :
    (journal.start verbosity dir).runOn machine =
      journal.started machine verbosity dir := by
  rw [Journal.start, Action.runOn_bind, Action.runOn_makeDirs, started,
    Machine.makeDirs]
  cases machine.tree.makeDirs machine.workingDir dir with
  | error cause => rfl
  | ok made =>
      dsimp only
      rw [Action.runOn_bind]
      cases found : made.find machine.workingDir (dir.join fileName) with
      | error cause =>
          have nowhere : ∀ location node, ¬made.Leads machine.workingDir
              (dir.join fileName) location node := by
            intro location node leads
            simp [(FileTree.find_eq_ok_iff _ _ _ _ _).mpr leads] at found
          rw [Action.runOn_pathExists_of_nowhere nowhere]
          simp [cleared, FileTree.removeFile, found, bind, Except.bind]
      | ok reached =>
          have leads := (FileTree.find_eq_ok_iff _ _ _ _ _).mp found
          rw [Action.runOn_pathExists leads]
          simp only [if_true]
          rw [Action.runOn_bind, Action.runOn_discard, Action.runOn_removeFile,
            Action.runOn_pure]
          dsimp only [cleared]
          cases made.removeFile machine.workingDir (dir.join fileName) <;> rfl

/-- A call that notes something does what the note does. -/
theorem runOn_call_of_entry
    {call : Call}
    {entry : Entry}
    (isNoted : call.entry? = some entry) :
    (journal.call call).runOn machine =
      ((none, journal), journal.noted machine entry) := by
  cases call with
  | note own =>
      cases isNoted
      rw [Journal.call, Action.runOn_bind, runOn_note, Action.runOn_pure]
  | capture name captured =>
      cases isNoted
      rw [Journal.call, Action.runOn_bind, runOn_note, Action.runOn_pure]
  | stopProgress => cases isNoted
  | start verbosity dir => cases isNoted

theorem runOn_call_start
    (verbosity : Nat)
    (dir : Path) :
    (journal.call (.start verbosity dir)).runOn machine =
      let after := journal.started machine verbosity dir
      ((some after.1.1, after.1.2), after.2) := by
  rw [Journal.call, Action.runOn_bind, runOn_start]
  rfl

theorem runOn_follow_cons
    (call : Call)
    (rest : List Call) :
    (journal.follow (call :: rest)).runOn machine =
      let first := (journal.call call).runOn machine
      let later := (first.1.2.follow rest).runOn first.2
      ((first.1.1 :: later.1.1, later.1.2), later.2) := by
  rw [follow, Action.runOn_bind]
  dsimp only
  rw [Action.runOn_bind]
  rfl

end Runs

/-! ## What the log holds -/

/-- The records of a call. -/
def Call.records (call : Call) : List String :=
  (call.entry?.map Entry.records).getD []

/-- A log that was started: its file, and the records that it should hold. -/
structure Log where
  /-- The file of the log. -/
  file : Path
  /-- The records since it was started, in order. -/
  records : List String
  deriving DecidableEq, Repr

/-- The log after a call, by what came of it: a start that succeeds begins a
log, and any other call adds its records to the one there is. -/
def logAfter
    (log : Option Log) : Call × Reply -> Option Log
  | (_, some (.ok file)) => some ⟨file, []⟩
  | (call, some (.error _)) => log.map fun log =>
    { log with records := log.records ++ call.records }
  | (call, none) => log.map fun log =>
    { log with records := log.records ++ call.records }

/-- The text of some records: a line for each of them. -/
def logText
    (time : String)
    (records : List String) : String :=
  String.join (records.map (line time))

/-- The log of a journal, if there is one, can be written to. -/
def IsWritable
    (journal : Journal)
    (machine : Machine) : Prop :=
  ∀ file ∈ journal.file,
    (machine.tree.write machine.workingDir file .empty).isOk = true

instance
    (journal : Journal)
    (machine : Machine) : Decidable (journal.IsWritable machine) :=
  inferInstanceAs (Decidable (∀ file ∈ journal.file, _ = true))

/-- The log can be written to at every point of a sequence of calls. -/
def StaysWritable
    (journal : Journal)
    (calls : List Call)
    (machine : Machine) : Prop :=
  ∀ front, front <+: calls ->
    let ran := (journal.follow front).runOn machine
    ran.1.2.IsWritable ran.2

section Logs

variable {journal : Journal} {machine : Machine} {log : Log}
  {rest : List Call}

theorem StaysWritable.head
    (writable : journal.StaysWritable rest machine) :
    journal.IsWritable machine :=
  writable [] List.nil_prefix

theorem StaysWritable.tail
    {call : Call}
    (writable : journal.StaysWritable (call :: rest) machine) :
    let ran := (journal.call call).runOn machine
    ran.1.2.StaysWritable rest ran.2 := by
  intro ran front isInitial
  have writableLater := writable (call :: front) (by simpa using isInitial)
  rw [runOn_follow_cons] at writableLater
  exact writableLater

/-- A log that can be written to takes its file. -/
theorem IsWritable.takesFile
    (writable : journal.IsWritable machine)
    {file : Path}
    (isLog : journal.file = some file) :
    machine.tree.TakesFile machine.workingDir file
      (file.locationFrom machine.workingDir) := by
  have written := writable file isLog
  cases written_eq : machine.tree.write machine.workingDir file .empty with
  | error cause => simp [written_eq, Except.isOk, Except.toBool] at written
  | ok after =>
      obtain ⟨location, takes⟩ := FileTree.takesFile_of_change written_eq
      rw [Path.locationFrom, ← FileTree.place_eq_follow takes.placed]
      exact takes

/-- What is at the location of a log that holds some records. -/
def logNode
    (time : String)
    (records : List String) : Option Node :=
  if records = [] then none
  else some (.file (logText time records).toUTF8 false)

/-- A line is added to the end of a log. -/
theorem edited_logNode
    (time record : String)
    (records : List String) :
    some (FileTree.edited none (· ++ (line time record).toUTF8)
      (logNode time records)) = logNode time (records ++ [record]) := by
  cases records with
  | nil => simp [logNode, logText, FileTree.edited]
  | cons first others =>
      simp [logNode, logText, FileTree.edited, String.join_append,
        String.join_cons, ByteArray.append_assoc]

/-- Records are added to a log one after another. -/
theorem get?_addRecords
    {workingDir location : Location}
    {file : Path}
    {tree : FileTree}
    {time : String}
    {earlier : List String}
    (records : List String)
    (takes : tree.TakesFile workingDir file location)
    (stands : tree.get? location = logNode time earlier) :
    (records.foldl (addRecord (some file) workingDir time) tree).get? location =
      logNode time (earlier ++ records) := by
  induction records generalizing tree earlier with
  | nil => simpa using stands
  | cons record rest inductionHypothesis =>
      have appended :=
        takes.change_eq none (· ++ (line time record).toUTF8)
      have added : addRecord (some file) workingDir time tree record =
          tree.put location (FileTree.edited none
            (· ++ (line time record).toUTF8) (logNode time earlier)) := by
        rw [← stands]
        simp only [addRecord, FileTree.append, appended]
      obtain ⟨takesStill, isPut⟩ := takes.put
        (FileTree.edited_ne_directory none (· ++ (line time record).toUTF8)
          (logNode time earlier))
      rw [edited_logNode] at isPut
      rw [List.foldl_cons, added, List.append_cons]
      exact inductionHypothesis takesStill isPut

/-- Where a log was started and can be written to, nothing is there yet. -/
theorem get?_cleared
    {workingDir : Location}
    {file : Path}
    {tree : FileTree}
    (takes : (cleared workingDir file tree).TakesFile workingDir file
      (file.locationFrom workingDir)) :
    (cleared workingDir file tree).get? (file.locationFrom workingDir) =
      none := by
  have noDirectory := takes.noDirectory
  rw [cleared] at takes noDirectory ⊢
  cases removed : tree.removeFile workingDir file with
  | ok after => exact FileTree.removeFile_eq_ok removed
  | error cause =>
      simp only [removed] at takes noDirectory ⊢
      match here_eq : tree.get? (file.locationFrom workingDir) with
      | none => rfl
      | some .directory => exact absurd here_eq noDirectory
      | some (.file content executable) =>
          -- A file that is there is found, and so it is removed.
          have found := (FileTree.find_eq_ok_iff _ _ _ _ _).mpr
            (FileTree.leads_of_place takes.placed here_eq fun _ => takes.noSlash)
          simp [FileTree.removeFile, found, bind, Except.bind, pure,
            Except.pure] at removed

/-- The node of a log is at the location of its file. -/
def Log.Stands
    (log : Log)
    (machine : Machine) : Prop :=
  machine.tree.get? (log.file.locationFrom machine.workingDir) =
    logNode machine.time log.records

/-- A note adds its records to the log. -/
theorem stands_noted
    (entry : Entry)
    (isLog : journal.file = some log.file)
    (writable : journal.IsWritable machine)
    (stands : log.Stands machine) :
    Log.Stands { log with records := log.records ++ entry.records }
      (journal.noted machine entry) := by
  have added := get?_addRecords entry.records (writable.takesFile isLog) stands
  rw [← isLog] at added
  exact added

/-- A log that cannot be started leaves the one there is, where that can still
be written to. -/
theorem stands_leftByDirs
    (dir : Path)
    (takes : (machine.tree.leftByDirs machine.workingDir dir).TakesFile
      machine.workingDir log.file (log.file.locationFrom machine.workingDir))
    (stands : log.Stands machine) :
    log.Stands { machine with
      tree := machine.tree.leftByDirs machine.workingDir dir } := by
  have changes := FileTree.changesWithin_leftByDirs machine.tree
    machine.workingDir dir
  have same : (machine.tree.leftByDirs machine.workingDir dir).get?
        (log.file.locationFrom machine.workingDir) =
      machine.tree.get? (log.file.locationFrom machine.workingDir) := by
    apply Classical.byContradiction
    intro differs
    rcases changes.inside _ differs with isFree | isFile | ⟨_, _, isMade⟩
    · exact isFree
    · exact isFile
    · exact takes.noDirectory isMade
  exact same.trans stands

/-- The log that a journal writes to is the one that its calls tell of, and it
is in its place. -/
structure Keeps
    (journal : Journal)
    (log : Option Log)
    (machine : Machine) : Prop where
  /-- The journal writes to the log. -/
  file_eq : journal.file = log.map Log.file
  /-- The log is in its place. -/
  stands : ∀ started ∈ log, started.Stands machine

theorem Keeps.noted
    {started : Option Log}
    (keeps : journal.Keeps started machine)
    (writable : journal.IsWritable machine)
    (entry : Entry) :
    journal.Keeps
      (started.map fun log =>
        { log with records := log.records ++ entry.records })
      (journal.noted machine entry) := by
  obtain ⟨file_eq, stands⟩ := keeps
  cases started with
  | none => exact ⟨file_eq, nofun⟩
  | some log =>
      refine ⟨file_eq, ?_⟩
      rintro _ ⟨⟩
      exact stands_noted entry file_eq writable (stands log rfl)

/-- A start that fails keeps the log, and one that succeeds begins one. -/
theorem Keeps.started
    {log : Option Log}
    (keeps : journal.Keeps log machine)
    {call : Call}
    (silent : call.records = [])
    (verbosity : Nat)
    (dir : Path)
    (writableAfter : let after := journal.started machine verbosity dir
      after.1.2.IsWritable after.2) :
    let after := journal.started machine verbosity dir
    after.1.2.Keeps (logAfter log (call, some after.1.1)) after.2 := by
  obtain ⟨file_eq, stands⟩ := keeps
  rw [Journal.started] at writableAfter ⊢
  cases made_eq : machine.tree.makeDirs machine.workingDir dir with
  | error cause =>
      simp only [made_eq] at writableAfter ⊢
      have same : logAfter log (call, some (.error cause)) = log := by
        simp [logAfter, silent]
      rw [same]
      refine ⟨file_eq, fun started isStarted => ?_⟩
      rw [Option.mem_def] at isStarted
      subst isStarted
      exact stands_leftByDirs dir (writableAfter.takesFile file_eq)
        (stands started rfl)
  | ok made =>
      simp only [made_eq] at writableAfter ⊢
      refine ⟨rfl, ?_⟩
      rintro _ ⟨⟩
      exact get?_cleared (writableAfter.takesFile rfl)

/-- A call keeps the log that it tells of. -/
theorem Keeps.called
    {log : Option Log}
    (keeps : journal.Keeps log machine)
    (writable : journal.IsWritable machine)
    (call : Call)
    (writableAfter : let ran := (journal.call call).runOn machine
      ran.1.2.IsWritable ran.2) :
    let ran := (journal.call call).runOn machine
    ran.1.2.Keeps (logAfter log (call, ran.1.1)) ran.2 := by
  have noted : ∀ entry, call.entry? = some entry ->
      let ran := (journal.call call).runOn machine
      ran.1.2.Keeps (logAfter log (call, ran.1.1)) ran.2 := by
    intro entry isNoted ran
    have ran_eq := runOn_call_of_entry journal machine isNoted
    have records_eq : call.records = entry.records := by
      simp [Call.records, isNoted]
    simp only [ran, ran_eq, logAfter, records_eq]
    exact keeps.noted writable entry
  cases call with
  | note entry => exact noted entry rfl
  | capture name captured => exact noted _ rfl
  | stopProgress =>
      simpa [logAfter, Call.records, Call.entry?, Journal.call] using keeps
  | start verbosity dir =>
      rw [runOn_call_start] at writableAfter ⊢
      exact keeps.started rfl verbosity dir writableAfter

/-- Calls one after another keep the log that they tell of. -/
theorem Keeps.followed
    {log : Option Log}
    (keeps : journal.Keeps log machine)
    (calls : List Call)
    (writable : journal.StaysWritable calls machine) :
    let ran := (journal.follow calls).runOn machine
    ran.1.2.Keeps ((calls.zip ran.1.1).foldl logAfter log) ran.2 := by
  induction calls generalizing journal machine log with
  | nil => exact keeps
  | cons call rest inductionHypothesis =>
      rw [runOn_follow_cons]
      have writableRest := writable.tail
      exact inductionHypothesis
        (keeps.called writable.head call writableRest.head) writableRest

end Logs

/-! ## What the console shows -/

/-- What a call writes to the standard error. -/
def Call.stderr
    (verbosity : Nat)
    (colored : Bool)
    (call : Call) : String :=
  (call.entry?.map (Entry.stderr verbosity colored)).getD ""

/-- The verbosity after a call. -/
def Call.verbosityAfter
    (verbosity : Nat) : Call -> Nat
  | .start next _ => next
  | _ => verbosity

/-- What calls write to the standard error, a text for each of them. -/
def shown
    (colored : Bool) : Nat -> List Call -> List String
  | _, [] => []
  | verbosity, call :: rest =>
    call.stderr verbosity colored ::
      shown colored (call.verbosityAfter verbosity) rest

section Shown

variable (journal : Journal) (machine : Machine)

end Shown

/-! ## The log at every verbosity -/

end Journal
end LockBench
