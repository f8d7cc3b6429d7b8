import LockBench.Proofs.Session.Seeding
import LockBench.Proofs.Session.Timing

/-!
# Transcripts of timing

A submitted group is timed by one process, once the directory of exported
timings has been made.  Where that directory cannot be made no process is
started, and the session ends.  Nothing else in the timing of a session starts
a process.
-/

namespace LockBench

open LockBench.Action

variable {transcript : List Exchange}

namespace Harness

variable {harness : Harness} {journal : Journal} {group : Group}

/-- What the process of a group comes to. -/
def answerTo
    (harness : Harness)
    (group : Group) : Except OsError Exit -> Session.Answer
  | .error cause => .error (.start harness.binary cause)
  | .ok exit => .ok
    { operation := group.operation
      commands := group.commands.length
      exitCode := exit.code?
      exportPath := harness.exportPath? group.operation }

/-- The directory of exported timings was made, if there is one. -/
def exportDirMade (harness : Harness) : List Exchange :=
  match harness.options.exportDir with
  | none => []
  | some dir => [.made dir (.ok ())]

/-- How the timing of a submitted group ends. -/
inductive Answers
    (harness : Harness)
    (group : Group) : Session.Answer -> List Exchange -> Prop
  /-- The directory of exported timings could not be made. -/
  | noResultsDir
      {dir : Path}
      (isDir : harness.options.exportDir = some dir)
      (cause : OsError) :
      Answers harness group (.error (.resultsDir dir cause))
        [.made dir (.error cause)]
  /-- The process was started, or at least tried to be. -/
  | started
      {late : List Exchange}
      (ended : Except OsError Exit)
      (starts : spawns late = [⟨harness.launch group, ended⟩]) :
      Answers harness group (harness.answerTo group ended)
        (harness.exportDirMade ++ late)

theorem spawns_exportDirMade (harness : Harness) :
    spawns harness.exportDirMade = [] := by
  rw [exportDirMade]
  split <;> rfl

/-- An answer that is an outcome is one of the group's operation. -/
theorem Answers.carries
    {answer : Session.Answer}
    (answers : harness.Answers group answer transcript) :
    Session.Carries group answer := by
  rintro outcome rfl
  generalize answer_eq : Except.ok outcome = answer at answers
  cases answers with
  | noResultsDir => cases answer_eq
  | started ended =>
      cases ended with
      | error cause => cases answer_eq
      | ok exit =>
          cases answer_eq
          rfl

/-- Making the directory of exported timings is at most one exchange. -/
theorem made_of_yields
    {result : Except HarnessFailure Unit}
    (yields : harness.makeExportDir.Yields transcript result) :
    (result = .ok () ∧ transcript = harness.exportDirMade) ∨
    ∃ dir cause, harness.options.exportDir = some dir ∧
      result = .error (.resultsDir dir cause) ∧
      transcript = [.made dir (.error cause)] := by
  rw [makeExportDir] at yields
  rw [exportDirMade]
  cases isDir : harness.options.exportDir with
  | none =>
      rw [isDir] at yields
      obtain ⟨rfl, rfl⟩ := yields_pure_iff.mp yields
      exact .inl ⟨rfl, rfl⟩
  | some dir =>
      rw [isDir] at yields
      obtain ⟨answer, _, late, asked, answered, rfl⟩ :=
        yields_bind_iff.mp yields
      obtain rfl := yields_request_iff.mp asked
      cases answer with
      | error cause =>
          obtain ⟨rfl, rfl⟩ := yields_pure_iff.mp answered
          exact .inr ⟨dir, cause, rfl, rfl, rfl⟩
      | ok done =>
          obtain ⟨rfl, rfl⟩ := yields_pure_iff.mp answered
          exact .inl ⟨rfl, rfl⟩

/-- A group is timed by one process, if its directory can be made. -/
theorem answers_of_yields
    {answer : Session.Answer}
    (yields : (harness.time journal group).Yields transcript answer) :
    harness.Answers group answer transcript := by
  rw [time] at yields
  obtain ⟨made, early, late, making, timing, rfl⟩ := yields_bind_iff.mp yields
  obtain ⟨rfl, rfl⟩ | ⟨dir, cause, isDir, rfl, rfl⟩ := made_of_yields making
  · obtain ⟨_, rest, noted, spawns_eq⟩ :=
      IsQuiet.of_bind (startsOnly_note _ _) timing
    obtain ⟨ended, _, last, asked, answered, rfl⟩ := yields_bind_iff.mp noted
    obtain rfl := yields_request_iff.mp asked
    have answer_eq : last = [] ∧ answer = harness.answerTo group ended := by
      cases ended <;> exact yields_pure_iff.mp answered
    obtain ⟨rfl, rfl⟩ := answer_eq
    exact .started ended spawns_eq
  · obtain ⟨rfl, rfl⟩ := yields_pure_iff.mp timing
    exact .noResultsDir isDir cause

end Harness

namespace Session

variable {harness : Harness} {journal : Journal} {suites : List Suite}
  {operations : List Operation} {calls : Record}
  {result : Except HarnessFailure Summary}

/-- Groups are submitted one after another, each of them answered in its own
way, and nothing is started in between. -/
inductive Submits (harness : Harness) : Record -> List Exchange -> Prop
  | nil
      {transcript : List Exchange}
      (startsNone : spawns transcript = []) : Submits harness [] transcript
  | cons
      {group : Group}
      {answer : Answer}
      {calls : Record}
      {before asked late : List Exchange}
      (startsNone : spawns before = [])
      (answers : harness.Answers group answer asked)
      (others : Submits harness calls late) :
      Submits harness ((group, answer) :: calls) (before ++ asked ++ late)

/-- What starts no process may precede the groups. -/
theorem Submits.after
    {before : List Exchange}
    (startsNone : spawns before = [])
    (submits : Submits harness calls transcript) :
    Submits harness calls (before ++ transcript) := by
  cases submits with
  | nil startsNoneEither =>
      exact .nil (by rw [spawns_append, startsNone, startsNoneEither]; rfl)
  | cons startsNoneEither answers others =>
      rw [← List.append_assoc, ← List.append_assoc]
      exact .cons (by rw [spawns_append, startsNone, startsNoneEither]; rfl)
        answers others

/-- What starts no process may follow the groups. -/
theorem Submits.before
    {after : List Exchange}
    (startsNone : spawns after = [])
    (submits : Submits harness calls transcript) :
    Submits harness calls (transcript ++ after) := by
  induction submits with
  | nil startsNoneEither =>
      exact .nil (by rw [spawns_append, startsNone, startsNoneEither]; rfl)
  | cons startsNoneEither answers others inductionHypothesis =>
      rw [List.append_assoc]
      exact .cons startsNoneEither answers inductionHypothesis

theorem startsOnly_reportOutcome
    {allowed : Spawn -> Prop}
    (journal : Journal)
    (operation : Operation)
    (outcome : Outcome) :
    (reportOutcome journal operation outcome).StartsOnly allowed := by
  refine (asksOnly_reportOutcome journal operation outcome).startsNone
    fun request asked _ => ?_
  cases asked <;> rfl

/-- Every transcript of the timing of operations is that of the groups that
are submitted for them. -/
theorem submits_of_yields
    (yields : (timeGroups journal (harness.time journal) suites
      operations).Yields transcript result) :
    ∃ calls, Follows suites operations calls result ∧
      (∀ call ∈ calls, Carries call.1 call.2) ∧
      Submits harness calls transcript := by
  induction operations generalizing transcript result with
  | nil =>
      obtain ⟨rfl, rfl⟩ := yields_pure_iff.mp yields
      exact ⟨[], ⟨rfl, rfl, rfl⟩, by simp, .nil rfl⟩
  | cons operation rest inductionHypothesis =>
      rw [timeGroups, collect?_eq_ite] at yields
      cases supported : isSupported suites operation with
      | false =>
          rw [supported] at yields
          obtain ⟨others, early, late, timed, ended, rfl⟩ :=
            yields_bind_iff.mp yields
          obtain ⟨calls, follows, carry, submits⟩ := inductionHypothesis timed
          rcases others with failure | summary
          all_goals
            obtain ⟨rfl, rfl⟩ := yields_pure_iff.mp ended
            rw [List.append_nil]
            exact ⟨calls, follows.skip supported, carry, submits⟩
      | true =>
          rw [supported] at yields
          obtain ⟨_, banner, _, noted, submitted, rfl⟩ :=
            yields_bind_iff.mp yields
          have startsNone := IsQuiet.spawns_eq (startsOnly_note _ _) noted
          obtain ⟨answer, asked, late, timed, answered, rfl⟩ :=
            yields_bind_iff.mp submitted
          have answers := Harness.answers_of_yields timed
          rw [← List.append_assoc]
          -- Nothing is submitted after a failure; an outcome, even one without
          -- success, lets the other operations be timed.
          rcases answer with failure | outcome
          · obtain ⟨rfl, rfl⟩ := yields_pure_iff.mp answered
            exact ⟨_, stopped_of_failure supported rest failure,
              by simpa using answers.carries,
              .cons startsNone answers (.nil rfl)⟩
          obtain ⟨_, reporting, _, reported, continued, rfl⟩ :=
            yields_bind_iff.mp answered
          have startsNoneEither :=
            IsQuiet.spawns_eq (startsOnly_reportOutcome _ _ _) reported
          obtain ⟨others, early, late, timed, ended, rfl⟩ :=
            yields_bind_iff.mp continued
          obtain ⟨calls, follows, carry, submits⟩ := inductionHypothesis timed
          rcases others with failure | summary
          all_goals
            obtain ⟨rfl, rfl⟩ := yields_pure_iff.mp ended
            rw [List.append_nil]
            exact ⟨_, follows.submit supported outcome,
              List.forall_mem_cons.mpr ⟨answers.carries, carry⟩,
              .cons startsNone answers (submits.after startsNoneEither)⟩

/-! ## One process for every group -/

/-- Whether the directory of exported timings could be made, so that the
group's process was asked for. -/
def Answer.isReached : Answer -> Bool
  | .error (.resultsDir _ _) => false
  | _ => true

theorem isReached_answerTo
    (harness : Harness)
    (group : Group)
    (ended : Except OsError Exit) :
    Answer.isReached (harness.answerTo group ended) = true := by
  cases ended <;> rfl

/-- The processes of a session are those of the groups that are reached. -/
theorem Submits.launches_eq
    (submits : Submits harness calls transcript) :
    (spawns transcript).map Spawn.launch =
      (calls.filter fun call => Answer.isReached call.2).map fun call =>
        harness.launch call.1 := by
  induction submits with
  | nil startsNone => rw [startsNone]; rfl
  | cons startsNone answers others inductionHypothesis =>
      rw [spawns_append, spawns_append, startsNone, List.nil_append,
        List.map_append, inductionHypothesis]
      cases answers with
      | noResultsDir isDir cause => rfl
      | started ended starts =>
          rw [spawns_append, harness.spawns_exportDirMade, starts]
          simp only [List.filter_cons, isReached_answerTo, if_true]
          rfl

/-- Operations were timed in order: the calls are as the suites prescribe, and
each of them is one process, except for one whose directory of exported timings
could not be made. -/
structure TimedInOrder
    (harness : Harness)
    (suites : List Suite)
    (operations : List Operation)
    (calls : Record)
    (result : Except HarnessFailure Summary)
    (transcript : List Exchange) : Prop where
  /-- The groups are submitted in order, up to the first one that fails. -/
  traced : Traced suites operations calls result
  /-- Each of them is answered as its process ends. -/
  submits : Submits harness calls transcript
  /-- There is one process for every submitted group. -/
  launched : (∀ dir cause, result ≠ .error (.resultsDir dir cause)) ->
    (spawns transcript).map Spawn.launch =
      calls.map fun call => harness.launch call.1
  /-- Where the directory of exported timings cannot be made, only the last
  group has none. -/
  unlaunched : ∀ dir cause, result = .error (.resultsDir dir cause) ->
    (spawns transcript).map Spawn.launch =
      calls.dropLast.map fun call => harness.launch call.1

/-- All calls but the last one are reached. -/
theorem Traced.filter_dropLast
    (traced : Traced suites operations calls result) :
    (calls.dropLast.filter fun call => Answer.isReached call.2) =
      calls.dropLast := by
  rw [List.filter_eq_self]
  intro call member
  obtain ⟨outcome, answer_eq⟩ := traced.continued call member
  rw [answer_eq]
  rfl

/-- The last call is the one that a failed session ends with. -/
theorem Traced.calls_eq
    {failure : HarnessFailure}
    (traced : Traced suites operations calls (.error failure)) :
    ∃ group, calls = calls.dropLast ++ [(group, .error failure)] := by
  obtain ⟨group, isLast⟩ := traced.stopped failure rfl
  obtain ⟨early, rfl⟩ := List.getLast?_eq_some_iff.mp isLast
  exact ⟨group, by rw [List.dropLast_concat]⟩

theorem timedInOrder_of_submits
    (traced : Traced suites operations calls result)
    (submits : Submits harness calls transcript) :
    TimedInOrder harness suites operations calls result transcript := by
  refine ⟨traced, submits, ?_, ?_⟩
  · intro noFailure
    rw [submits.launches_eq, List.filter_eq_self.mpr]
    intro call member
    cases result with
    | error failure =>
        obtain ⟨group, calls_eq⟩ := traced.calls_eq
        rw [calls_eq, List.mem_append, List.mem_singleton] at member
        rcases member with member | rfl
        · obtain ⟨outcome, answer_eq⟩ := traced.continued call member
          rw [answer_eq]
          rfl
        · cases failure with
          | start binary cause => rfl
          | resultsDir dir cause => exact absurd rfl (noFailure dir cause)
    | ok summary =>
        obtain ⟨completed, -⟩ := traced.completed summary rfl
        obtain ⟨outcome, answer_eq⟩ :=
          exists_outcome_of_answered completed.answered call member
        rw [answer_eq]
        rfl
  · rintro dir cause rfl
    obtain ⟨group, calls_eq⟩ := traced.calls_eq
    rw [submits.launches_eq, calls_eq, List.filter_append,
      traced.filter_dropLast, List.dropLast_concat]
    simp [Answer.isReached]

/-- Every transcript of the timing of operations is that of operations timed
in order. -/
theorem timedInOrder_of_yields
    (yields : (timeGroups journal (harness.time journal) suites
      operations).Yields transcript result) :
    ∃ calls,
      TimedInOrder harness suites operations calls result transcript := by
  obtain ⟨calls, follows, carry, submits⟩ := submits_of_yields yields
  refine ⟨calls, timedInOrder_of_submits ?_ submits⟩
  cases result with
  | error failure => exact Stopped.traced follows
  | ok summary => exact Completed.traced carry follows

end Session
end LockBench
