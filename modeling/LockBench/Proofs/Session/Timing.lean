import LockBench.Host.Machine
import LockBench.Proofs.Host.Runs
import LockBench.Proofs.Session.Groups
import LockBench.Proofs.Session.Layout
import LockBench.Session.Timing

/-!
# Traces of timed groups

What times the groups of a session may answer anything, and its answer may
depend on all groups before and on the host.  A record of its calls tells which
groups it was given.  They are those of the supported operations in order, up
to the first one that could not be timed.
-/

namespace LockBench
namespace Session

/-- What may be answered to a group. -/
abbrev Answer := Except HarnessFailure Outcome

/-- The groups that were submitted, each with the answer to it. -/
abbrev Record := List (Group × Answer)

/-- Submit a group to what times it, and keep a record of the call. -/
def recording
    (time : Record -> Group -> Action Answer)
    (group : Group) : StateT Record Action Answer := do
  let record ← get
  let answer ← time record group
  set (record ++ [(group, answer)])
  return answer

/-- A call is that of what times the group, and it is added to the record. -/
theorem run_recording
    (time : Record -> Group -> Action Answer)
    (group : Group)
    (record : Record) :
    (recording time group).run record = do
      let answer ← time record group
      return (answer, record ++ [(group, answer)]) := by
  simp [recording]

/-- Whether some suite supports an operation. -/
def isSupported
    (suites : List Suite)
    (operation : Operation) : Bool :=
  suites.any fun suite => operation ∈ suite.operations

/-- The commands of the suites that support an operation, in order of the
suites. -/
def groupOf
    (suites : List Suite)
    (operation : Operation) : Group :=
  ⟨operation, suites.filterMap (·.command? operation)⟩

/-- An operation has a group exactly where some suite supports it. -/
theorem collect?_eq_ite
    (suites : List Suite)
    (operation : Operation) :
    Group.collect? suites operation =
      if isSupported suites operation then some (groupOf suites operation)
      else none := by
  have collect?_eq_none : Group.collect? suites operation = none ↔
      isSupported suites operation = false := by
    rw [Group.collect?_eq_none_iff]
    simp [isSupported]
  cases collected : Group.collect? suites operation with
  | none =>
      rw [collect?_eq_none.mp collected]
      rfl
  | some group =>
      have supported : isSupported suites operation = true := by
        rw [← Bool.not_eq_false, ← collect?_eq_none, collected]
        simp
      rw [if_pos supported, Option.some.injEq]
      exact ((Group.collect?_eq_some_iff _ _ _).mp collected).1

/-! ## What becomes of the operations -/

/-- The operations were all taken, and these calls came of them. -/
structure Completed
    (suites : List Suite)
    (operations : List Operation)
    (calls : Record)
    (summary : Summary) : Prop where
  /-- Every supported operation was submitted. -/
  submitted : calls.map Prod.fst =
    (operations.filter (isSupported suites)).map (groupOf suites)
  /-- There is one outcome for every call, and it is the answer. -/
  answered : calls.map Prod.snd = summary.outcomes.map .ok
  /-- All other operations were skipped. -/
  skipped : summary.skipped =
    operations.filter fun operation => !isSupported suites operation

/-- A call failed, and nothing was submitted after it. -/
structure Stopped
    (suites : List Suite)
    (operations : List Operation)
    (calls : Record)
    (failure : HarnessFailure) : Prop where
  /-- The first ones of the supported operations were submitted. -/
  submitted : calls.map Prod.fst <+:
    (operations.filter (isSupported suites)).map (groupOf suites)
  /-- All calls but the last one had an outcome. -/
  answered : ∃ outcomes : List Outcome,
    calls.map Prod.snd = outcomes.map .ok ++ [.error failure]

/-- The calls that were made, and the result, are those of the operations. -/
def Follows
    (suites : List Suite)
    (operations : List Operation)
    (calls : Record) : Except HarnessFailure Summary -> Prop
  | .error failure => Stopped suites operations calls failure
  | .ok summary => Completed suites operations calls summary

section Steps

variable {suites : List Suite} {operation : Operation}
  {operations : List Operation} {calls : Record} {summary : Summary}
  {failure : HarnessFailure}

theorem Completed.skip
    (unsupported : isSupported suites operation = false)
    (completed : Completed suites operations calls summary) :
    Completed suites (operation :: operations) calls
      { summary with skipped := operation :: summary.skipped } where
  submitted := by
    rw [List.filter_cons_of_neg (by simp [unsupported]), completed.submitted]
  answered := completed.answered
  skipped := by
    rw [List.filter_cons_of_pos (by simp [unsupported]), completed.skipped]

theorem Stopped.skip
    (unsupported : isSupported suites operation = false)
    (stopped : Stopped suites operations calls failure) :
    Stopped suites (operation :: operations) calls failure where
  submitted := by
    rw [List.filter_cons_of_neg (by simp [unsupported])]
    exact stopped.submitted
  answered := stopped.answered

theorem Completed.submit
    (supported : isSupported suites operation = true)
    (outcome : Outcome)
    (completed : Completed suites operations calls summary) :
    Completed suites (operation :: operations)
      ((groupOf suites operation, .ok outcome) :: calls)
      { summary with outcomes := outcome :: summary.outcomes } where
  submitted := by
    rw [List.filter_cons_of_pos supported, List.map_cons, List.map_cons,
      completed.submitted]
  answered := by
    rw [List.map_cons, List.map_cons, completed.answered]
  skipped := by
    rw [List.filter_cons_of_neg (by simp [supported]), completed.skipped]

theorem Stopped.submit
    (supported : isSupported suites operation = true)
    (outcome : Outcome)
    (stopped : Stopped suites operations calls failure) :
    Stopped suites (operation :: operations)
      ((groupOf suites operation, .ok outcome) :: calls) failure where
  submitted := by
    rw [List.filter_cons_of_pos supported, List.map_cons, List.map_cons,
      List.prefix_cons_inj]
    exact stopped.submitted
  answered := by
    obtain ⟨outcomes, answered⟩ := stopped.answered
    refine ⟨outcome :: outcomes, ?_⟩
    rw [List.map_cons, List.map_cons, answered, List.cons_append]

/-- The first call that fails is the last one. -/
theorem stopped_of_failure
    (supported : isSupported suites operation = true)
    (operations : List Operation)
    (failure : HarnessFailure) :
    Stopped suites (operation :: operations)
      [(groupOf suites operation, .error failure)] failure where
  submitted := by
    rw [List.filter_cons_of_pos supported, List.map_cons]
    simp
  answered := ⟨[], rfl⟩

end Steps

/-! ## Calls of a session -/

section Calls

variable {world : World μ} {journal : Journal} {suites : List Suite}
  {time : Record -> Group -> Action Answer}

/-- An outcome that is answered to a group is one of its operation. -/
def Carries
    (group : Group)
    (answer : Answer) : Prop :=
  ∀ outcome, answer = .ok outcome -> outcome.operation = group.operation

/-- Whatever is answered to a group carries its operation. -/
def Faithful
    (world : World μ)
    (time : Record -> Group -> Action Answer) : Prop :=
  ∀ record group tree,
    (time record group).Ensures world (fun _ => True)
      (fun answer _ => Carries group answer) tree

/-- A call leaves the record with its answer at the end. -/
theorem ensures_recording
    (faithful : Faithful world time)
    (group : Group)
    (record : Record)
    (tree : FileTree) :
    ((recording time group).run record).Ensures world (fun _ => True)
      (fun left _ => left.2 = record ++ [(group, left.1)] ∧
        Carries group left.1) tree := by
  rw [run_recording, Action.ensures_bind]
  refine (faithful record group tree).mono fun answer last carries => ?_
  exact ⟨rfl, carries⟩

/-- A record of the calls changes nothing else about them. -/
theorem timeGroups_recording
    (journal : Journal)
    (time : Group -> Action Answer)
    (suites : List Suite)
    (operations : List Operation)
    (record : Record) :
    Prod.fst <$> (timeGroups journal (recording fun _ => time) suites
        operations).run record =
      timeGroups journal time suites operations := by
  induction operations generalizing record with
  | nil => rfl
  | cons operation rest inductionHypothesis =>
      rw [timeGroups, timeGroups]
      cases Group.collect? suites operation with
      | none =>
          simp only [StateT.run_bind, map_bind]
          rw [← inductionHypothesis record, bind_map_left]
          refine bind_congr fun left => ?_
          rcases left with ⟨failure | summary, last⟩ <;> rfl
      | some group =>
          simp only [StateT.run_bind, run_recording, StateT.run_monadLift,
            monadLift_self, map_bind, bind_assoc, pure_bind]
          refine bind_congr fun _ => bind_congr fun answer => ?_
          rcases answer with failure | outcome
          · rfl
          simp only [StateT.run_bind, StateT.run_monadLift, monadLift_self,
            map_bind, bind_assoc, pure_bind]
          refine bind_congr fun _ => ?_
          rw [← inductionHypothesis (record ++ [(group, .ok outcome)]),
            bind_map_left]
          refine bind_congr fun left => ?_
          rcases left with ⟨failure | summary, last⟩ <;> rfl

/-- The timing program answers with outcomes of the operations that it times. -/
theorem faithful_time
    (harness : Harness)
    (journal : Journal) :
    Faithful world fun _ => harness.time journal := by
  intro _ group tree
  unfold Harness.time
  rw [Action.ensures_bind]
  apply (Action.ensures_nothing _ tree).mono
  rintro (failure | made) first _
  · rintro outcome ⟨⟩
  dsimp only
  rw [Action.ensures_bind]
  refine (Action.ensures_nothing _ first).mono fun _ noted _ => ?_
  rw [Action.ensures_bind]
  apply (Action.ensures_nothing _ noted).mono
  rintro (cause | exit) last _
  · rintro outcome ⟨⟩
  · rintro outcome ⟨⟩
    rfl

/-- The calls of a session follow its operations, and they are added to the
record that is there. -/
theorem ensures_timeGroups_recording
    (faithful : Faithful world time)
    (operations : List Operation)
    (record : Record)
    (tree : FileTree) :
    ((timeGroups journal (recording time) suites operations).run record).Ensures
      world (fun _ => True)
      (fun left _ => ∃ calls, left.2 = record ++ calls ∧
        (∀ call ∈ calls, Carries call.1 call.2) ∧
        Follows suites operations calls left.1) tree := by
  induction operations generalizing record tree with
  | nil =>
      exact ⟨[], by simp, by simp, ⟨rfl, rfl, rfl⟩⟩
  | cons operation rest inductionHypothesis =>
      rw [timeGroups, collect?_eq_ite]
      cases supported : isSupported suites operation with
      | false =>
          simp only [Bool.false_eq_true, if_false]
          rw [Action.ensures_state_bind]
          apply (inductionHypothesis record tree).mono
          rintro ⟨failure | summary, _⟩ last ⟨calls, rfl, carry, follows⟩
          · exact ⟨calls, rfl, carry, follows.skip supported⟩
          · exact ⟨calls, rfl, carry, follows.skip supported⟩
      | true =>
          simp only [if_true]
          rw [Action.ensures_state_bind, Action.ensures_state_lift]
          refine (Action.ensures_nothing _ tree).mono fun _ noted _ => ?_
          rw [Action.ensures_state_bind]
          apply (ensures_recording faithful _ record noted).mono
          rintro ⟨answer, added⟩ timed ⟨added_eq, carries⟩
          dsimp only at added_eq carries ⊢
          subst added_eq
          rcases answer with failure | outcome
          · exact ⟨_, rfl, by simpa using carries,
              stopped_of_failure supported rest failure⟩
          dsimp only
          rw [Action.ensures_state_bind, Action.ensures_state_lift]
          refine (Action.ensures_nothing _ timed).mono fun _ reported _ => ?_
          dsimp only
          rw [Action.ensures_state_bind]
          apply (inductionHypothesis _ reported).mono
          rintro ⟨failure | summary, _⟩ last ⟨calls, rfl, carry, follows⟩
          · exact ⟨_ :: calls, by simp, List.forall_mem_cons.mpr ⟨carries, carry⟩,
              follows.submit supported outcome⟩
          · exact ⟨_ :: calls, by simp, List.forall_mem_cons.mpr ⟨carries, carry⟩,
              follows.submit supported outcome⟩

/-! ## The trace of a session -/

/-- The commands of a submitted group are those of the suites that support its
operation, and all of them have a preparation or none has. -/
structure Comparable
    (suites : List Suite)
    (group : Group) : Prop where
  /-- There is a command. -/
  nonempty : group.commands ≠ []
  /-- The commands are those of the supporting suites, in order. -/
  commands_eq :
    group.commands = suites.filterMap (·.command? group.operation)
  /-- Preparations are matched with commands. -/
  uniform : (∀ command ∈ group.commands, command.prepare ≠ none) ∨
    ∀ command ∈ group.commands, command.prepare = none

/-- Outcomes and skipped operations account for every place in a list of
operations once. -/
structure Accounts
    (suites : List Suite)
    (operations : List Operation)
    (summary : Summary) : Prop where
  /-- The outcomes are those of the supported operations, in order. -/
  outcomes : summary.outcomes.map Outcome.operation =
    operations.filter (isSupported suites)
  /-- Together they are all operations, each as often as it was asked for. -/
  once : (summary.outcomes.map Outcome.operation ++ summary.skipped).Perm
    operations
  /-- Exactly the outcomes without success are counted as failed. -/
  failed : ∀ outcome, outcome ∈ summary.failed ↔
    outcome ∈ summary.outcomes ∧ outcome.exitCode ≠ some 0

/-- The calls of a session and its result are as its operations and its suites
prescribe. -/
structure Traced
    (suites : List Suite)
    (operations : List Operation)
    (calls : Record)
    (result : Except HarnessFailure Summary) : Prop where
  /-- Every submitted group compares the supporting suites. -/
  comparable : ∀ call ∈ calls, Comparable suites call.1
  /-- Groups are submitted in order, one for each supported operation. -/
  submitted : calls.map Prod.fst <+:
    (operations.filter (isSupported suites)).map (groupOf suites)
  /-- Nothing is submitted after a call that failed. -/
  continued : ∀ call ∈ calls.dropLast, ∃ outcome, call.2 = .ok outcome
  /-- A session fails only as its last call did. -/
  stopped : ∀ failure, result = .error failure ->
    ∃ group, calls.getLast? = some (group, .error failure)
  /-- Where every call has an outcome, whatever it is, there is a summary. -/
  endures : (∀ call ∈ calls, ∃ outcome, call.2 = .ok outcome) ->
    ∃ summary, result = .ok summary
  /-- A summary tells all answers, and accounts for all operations. -/
  completed : ∀ summary, result = .ok summary ->
    Completed suites operations calls summary ∧
      Accounts suites operations summary

/-- A command has no preparation exactly where everything is to be kept. -/
theorem prepare_eq_none_iff
    {operation : Operation}
    {command : Command}
    (member : command ∈ (groupOf suites operation).commands) :
    command.prepare = none ↔ operation.temperature = .noop := by
  obtain ⟨suite, _, supported⟩ := List.mem_filterMap.mp member
  rw [Suite.command?] at supported
  split at supported
  · cases supported
    exact suite.layout.prepare?_eq_none_iff operation
  · cases supported

/-- The group of a supported operation compares the suites that support it. -/
theorem comparable_groupOf
    {operation : Operation}
    (supported : isSupported suites operation = true) :
    Comparable suites (groupOf suites operation) where
  nonempty := by
    have collected : Group.collect? suites operation =
        some (groupOf suites operation) := by
      rw [collect?_eq_ite, if_pos supported]
    exact ((Group.collect?_eq_some_iff _ _ _).mp collected).2
  commands_eq := rfl
  uniform := by
    by_cases isNoop : operation.temperature = .noop
    · exact .inr fun command member =>
        (prepare_eq_none_iff member).mpr isNoop
    · exact .inl fun command member noPrepare =>
        isNoop ((prepare_eq_none_iff member).mp noPrepare)

section Traces

variable {operations : List Operation} {calls : Record} {summary : Summary}
  {failure : HarnessFailure}

theorem comparable_of_submitted
    (submitted : calls.map Prod.fst <+:
      (operations.filter (isSupported suites)).map (groupOf suites)) :
    ∀ call ∈ calls, Comparable suites call.1 := by
  intro call member
  have present := submitted.subset (List.mem_map_of_mem member)
  obtain ⟨operation, isIn, group_eq⟩ := List.mem_map.mp present
  rw [← group_eq]
  exact comparable_groupOf (List.mem_filter.mp isIn).2

/-- A list of answers that are outcomes has an outcome for every call. -/
theorem exists_outcome_of_answered
    {outcomes : List Outcome}
    (answered : calls.map Prod.snd = outcomes.map .ok) :
    ∀ call ∈ calls, ∃ outcome, call.2 = .ok outcome := by
  intro call member
  have present := List.mem_map_of_mem (f := Prod.snd) member
  rw [answered] at present
  obtain ⟨outcome, _, answer_eq⟩ := List.mem_map.mp present
  exact ⟨outcome, answer_eq.symm⟩

/-- Outcomes have the operations of the groups that they answer to. -/
theorem operations_eq_of_answered
    {outcomes : List Outcome}
    (carry : ∀ call ∈ calls, Carries call.1 call.2)
    (answered : calls.map Prod.snd = outcomes.map .ok) :
    outcomes.map Outcome.operation =
      calls.map fun call => call.1.operation := by
  induction calls generalizing outcomes with
  | nil =>
      rw [List.map_nil, eq_comm, List.map_eq_nil_iff] at answered
      rw [answered]
      rfl
  | cons call rest inductionHypothesis =>
      cases outcomes with
      | nil => simp at answered
      | cons outcome others =>
          rw [List.map_cons, List.map_cons, List.cons.injEq] at answered
          rw [List.forall_mem_cons] at carry
          rw [List.map_cons, List.map_cons, carry.1 outcome answered.1,
            inductionHypothesis carry.2 answered.2]

/-- A summary of all operations accounts for them. -/
theorem Completed.accounts
    (carry : ∀ call ∈ calls, Carries call.1 call.2)
    (completed : Completed suites operations calls summary) :
    Accounts suites operations summary := by
  have outcomes : summary.outcomes.map Outcome.operation =
      operations.filter (isSupported suites) := by
    rw [operations_eq_of_answered carry completed.answered]
    have submitted := congrArg (List.map Group.operation) completed.submitted
    simpa [groupOf, Function.comp_def] using submitted
  refine ⟨outcomes, ?_, ?_⟩
  · rw [outcomes, completed.skipped]
    exact List.filter_append_perm _ _
  · intro outcome
    rw [Summary.failed, List.mem_filter]
    simp [Outcome.succeeded]

/-- A session that takes all operations is traced. -/
theorem Completed.traced
    (carry : ∀ call ∈ calls, Carries call.1 call.2)
    (completed : Completed suites operations calls summary) :
    Traced suites operations calls (.ok summary) := by
  have submitted : calls.map Prod.fst <+:
      (operations.filter (isSupported suites)).map (groupOf suites) :=
    completed.submitted ▸ List.prefix_rfl
  refine ⟨comparable_of_submitted submitted, submitted, ?_, ?_, ?_, ?_⟩
  · intro call member
    exact exists_outcome_of_answered completed.answered call
      (List.dropLast_subset calls member)
  · rintro failure ⟨⟩
  · exact fun _ => ⟨summary, rfl⟩
  · rintro other ⟨⟩
    exact ⟨completed, completed.accounts carry⟩

/-- A session that is stopped by a call is traced. -/
theorem Stopped.traced
    (stopped : Stopped suites operations calls failure) :
    Traced suites operations calls (.error failure) := by
  obtain ⟨submitted, outcomes, answered⟩ := stopped
  have last_eq : ∃ group, calls.getLast? = some (group, .error failure) := by
    have lastAnswer : calls.getLast?.map Prod.snd = some (.error failure) := by
      rw [← List.getLast?_map, answered, List.getLast?_concat]
    obtain ⟨⟨group, answer⟩, isLast, rfl⟩ := Option.map_eq_some_iff.mp lastAnswer
    exact ⟨group, isLast⟩
  refine ⟨comparable_of_submitted submitted, submitted, ?_, ?_, ?_, ?_⟩
  · have answeredEarlier : calls.dropLast.map Prod.snd = outcomes.map .ok := by
      rw [List.map_dropLast, answered, List.dropLast_concat]
    exact exists_outcome_of_answered answeredEarlier
  · rintro other ⟨⟩
    exact last_eq
  · intro allAnswered
    obtain ⟨group, isLast⟩ := last_eq
    obtain ⟨outcome, isOk⟩ := allAnswered _ (List.mem_of_getLast? isLast)
    cases isOk
  · rintro summary ⟨⟩

end Traces

/-- Whatever times the groups, and in whatever way it depends on what it was
given before, every run of a session's operations makes the calls that its
suites prescribe, and ends as its calls did. -/
theorem timed_groups_are_traced
    (journal : Journal)
    (suites : List Suite)
    (operations : List Operation)
    (faithful : Faithful world time)
    {tree last : FileTree}
    {ended : Except HarnessFailure Summary × Record}
    {moments : List μ}
    (runs : ((timeGroups journal (recording time) suites operations).run
      []).Runs world tree ended moments last) :
    Traced suites operations ended.2 ended.1 := by
  obtain ⟨result, calls⟩ := ended
  obtain ⟨_, made, calls_eq, carry, follows⟩ := runs.of_ensures
    (ensures_timeGroups_recording faithful operations [] tree)
  dsimp only at calls_eq follows ⊢
  rw [calls_eq, List.nil_append]
  cases result with
  | error failure => exact Stopped.traced follows
  | ok summary => exact Completed.traced carry follows

/-- The second group is one that cannot be timed. -/
def secondRefused : Record -> Group -> Action Answer
  | [], group =>
    pure (.ok ⟨group.operation, group.commands.length, some 1, none⟩)
  | _, _ => pure (.error (.start ⟨"hyperfine"⟩ .noSuchFile))

/-- A failed timing is followed by a second one, an unsupported operation is
passed over, and nothing follows what cannot be timed. -/
theorem timed_groups_are_traced_refused :
    let suites : List Suite :=
      [{ tool := .ripenv
         context := planContext .ripenv ⟨"/tmp"⟩ 1 0 ⟨"/bin/ripenv"⟩ }]
    let operations : List Operation :=
      [.lockCold, .syncNoop, .lockNoop, .lockCold]
    let machine : Machine :=
      { tree := .empty, workingDir := [], environment := [],
        behavior := fun _ => none, time := "", freshNames := [] }
    let ended := (((timeGroups {} (recording secondRefused) suites
      operations).run []).on (μ := Unit)
        (fun request tree => ((machine.answer request).1, [], tree)) .empty).1
    ended.2.map (fun call => call.1.operation) = [.lockCold, .lockNoop] ∧
      Traced suites operations ended.2 ended.1 := by
  intro suites operations machine ended
  refine ⟨by decide +kernel, ?_⟩
  have faithful : Faithful (fun _ _ _ _ _ => True : World Unit)
      secondRefused := by
    rintro (_ | ⟨call, record⟩) group tree outcome isOk
    · cases isOk
      rfl
    · cases isOk
  exact timed_groups_are_traced {} suites operations faithful
    (Action.runs_on (fun _ _ => trivial) _ .empty)

end Calls

end Session
end LockBench
