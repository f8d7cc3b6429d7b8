import LockBench.Proofs.Host.Runs
import Mathlib.Control.Monad.Basic

/-!
# Transcripts of actions

A transcript tells every request that was made with the answer to it.  Nothing
is assumed about who answers, so that what holds of all transcripts of an
action holds in every environment.  The processes that were started, each with
its end, are a part of the transcript.
-/

namespace LockBench

/-- A request and the answer to it. -/
abbrev Exchange := (request : Request) × request.Answer

/-- A process that was asked for, and how it ended if it could be started. -/
structure Spawn where
  /-- The process. -/
  launch : Launch
  /-- How it ended, or why it could not be started. -/
  ended : Except OsError Exit
  deriving DecidableEq

/-- The process that an exchange is about, if it is about one. -/
def Exchange.spawn? : Exchange -> Option Spawn
  | ⟨.capture launch, answer⟩ => some ⟨launch, answer.map Captured.exit⟩
  | ⟨.attend launch, answer⟩ => some ⟨launch, answer⟩
  | _ => none

/-- The processes of a transcript, in order. -/
def spawns (transcript : List Exchange) : List Spawn :=
  transcript.filterMap Exchange.spawn?

@[simp] theorem spawns_nil : spawns [] = [] := rfl

@[simp] theorem spawns_append (early late : List Exchange) :
    spawns (early ++ late) = spawns early ++ spawns late :=
  List.filterMap_append

namespace Action

/-- An action that is given the answers of a transcript ends in a result. -/
inductive Yields : Action α -> List Exchange -> α -> Prop
  | done (result : α) : Yields (.done result) [] result
  | ask
      {request : Request}
      {next : request.Answer -> Action α}
      {transcript : List Exchange}
      {result : α}
      (answer : request.Answer)
      (continued : Yields (next answer) transcript result) :
      Yields (.ask request next) (⟨request, answer⟩ :: transcript) result

variable {transcript : List Exchange}

@[simp] theorem yields_pure_iff
    {result other : α} :
    (pure result : Action α).Yields transcript other ↔
      transcript = [] ∧ other = result := by
  constructor
  · rintro (_ | _)
    exact ⟨rfl, rfl⟩
  · rintro ⟨rfl, rfl⟩
    exact .done other

theorem yields_ask_iff
    {request : Request}
    {next : request.Answer -> Action α}
    {result : α} :
    (Action.ask request next).Yields transcript result ↔
      ∃ answer rest, (next answer).Yields rest result ∧
        transcript = ⟨request, answer⟩ :: rest := by
  constructor
  · rintro (_ | ⟨answer, continued⟩)
    exact ⟨answer, _, continued, rfl⟩
  · rintro ⟨answer, rest, continued, rfl⟩
    exact .ask answer continued

@[simp] theorem yields_request_iff
    {request : Request}
    {answer : request.Answer} :
    (Action.request request).Yields transcript answer ↔
      transcript = [⟨request, answer⟩] := by
  rw [Action.request, yields_ask_iff]
  constructor
  · rintro ⟨given, rest, yields, rfl⟩
    obtain ⟨rfl, rfl⟩ := yields_pure_iff.mp yields
    rfl
  · rintro rfl
    exact ⟨answer, [], .done answer, rfl⟩

/-- The transcript of two actions, one after another, is that of the first one
followed by that of the second one. -/
theorem yields_bind_iff
    {action : Action α}
    {next : α -> Action β}
    {result : β} :
    (action >>= next).Yields transcript result ↔
      ∃ value early late, action.Yields early value ∧
        (next value).Yields late result ∧ transcript = early ++ late := by
  change (action.bind next).Yields transcript result ↔ _
  induction action generalizing transcript with
  | done first =>
      constructor
      · exact fun yields => ⟨first, [], transcript, .done first, yields, rfl⟩
      · rintro ⟨value, early, late, ⟨⟩, yields, rfl⟩
        exact yields
  | ask request continuation inductionHypothesis =>
      rw [Action.bind, yields_ask_iff]
      simp only [inductionHypothesis]
      constructor
      · rintro ⟨answer, rest, ⟨value, early, late, first, second, rfl⟩, rfl⟩
        exact ⟨value, _, late, .ask answer first, second, rfl⟩
      · rintro ⟨value, early, late, first, second, rfl⟩
        obtain ⟨answer, rest, continued, rfl⟩ := yields_ask_iff.mp first
        exact ⟨answer, _, ⟨value, rest, late, continued, second, rfl⟩, rfl⟩

/-- A transcript leaves an action no choice: it settles where the action ends,
and in what result. -/
theorem Yields.unique
    {action : Action α}
    {result other : α}
    {early late otherEarly otherLate : List Exchange}
    (yields : action.Yields early result)
    (otherYields : action.Yields otherEarly other)
    (same : early ++ late = otherEarly ++ otherLate) :
    early = otherEarly ∧ result = other := by
  -- The first exchanges agree, so that both runs go on with the same action.
  induction yields generalizing otherEarly with
  | done result =>
      cases otherYields
      exact ⟨rfl, rfl⟩
  | ask answer continued inductionHypothesis =>
      obtain ⟨given, rest, otherContinued, rfl⟩ :=
        yields_ask_iff.mp otherYields
      simp only [List.cons_append, List.cons.injEq, Sigma.mk.injEq, heq_eq_eq,
        true_and] at same
      obtain ⟨rfl, same⟩ := same
      obtain ⟨rfl, rfl⟩ := inductionHypothesis otherContinued same
      exact ⟨rfl, rfl⟩

/-- Whoever answers the requests, and in whatever way the answers depend on
those before, the result has a transcript. -/
theorem exists_yields
    (answer : (request : Request) -> StateM σ request.Answer)
    (action : Action α)
    (state : σ) :
    ∃ transcript,
      action.Yields transcript ((action.interpret answer).run state).1 := by
  induction action generalizing state with
  | done result => exact ⟨[], .done result⟩
  | ask request next inductionHypothesis =>
      obtain ⟨rest, yields⟩ := inductionHypothesis
        ((answer request).run state).1 ((answer request).run state).2
      exact ⟨_, .ask _ yields⟩

/-- What a host observes is a transcript if it is every request with its
answer. -/
theorem yields_on
    {host : Host Exchange}
    (transcribes : ∀ request tree,
      (host request tree).2.1 = [⟨request, (host request tree).1⟩])
    (action : Action α)
    (tree : FileTree) :
    action.Yields (action.on host tree).2.1 (action.on host tree).1 := by
  induction action generalizing tree with
  | done result => exact .done result
  | ask request next inductionHypothesis =>
      simp only [on, transcribes]
      exact .ask _ (inductionHypothesis _ _)

/-! ## Actions that may fail -/

theorem yields_run_bind_iff
    {action : ExceptT ε Action α}
    {next : α -> ExceptT ε Action β}
    {result : Except ε β} :
    (action >>= next).run.Yields transcript result ↔
      (∃ failure, action.run.Yields transcript (.error failure) ∧
        result = .error failure) ∨
      ∃ value early late, action.run.Yields early (.ok value) ∧
        (next value).run.Yields late result ∧ transcript = early ++ late := by
  rw [ExceptT.run_bind, yields_bind_iff]
  constructor
  · rintro ⟨failure | value, early, late, first, second, rfl⟩
    · obtain ⟨rfl, rfl⟩ := yields_pure_iff.mp second
      rw [List.append_nil]
      exact .inl ⟨failure, first, rfl⟩
    · exact .inr ⟨value, early, late, first, second, rfl⟩
  · rintro (⟨failure, first, rfl⟩ | ⟨value, early, late, first, second, rfl⟩)
    · exact ⟨_, transcript, [], first, .done _, by simp⟩
    · exact ⟨_, early, late, first, second, rfl⟩

theorem yields_run_lift_iff
    {action : Action α}
    {result : Except ε α} :
    (liftM action : ExceptT ε Action α).run.Yields transcript result ↔
      ∃ value, action.Yields transcript value ∧ result = .ok value := by
  change (action >>= fun value => pure (.ok value)).Yields transcript result ↔ _
  rw [yields_bind_iff]
  constructor
  · rintro ⟨value, early, late, first, second, rfl⟩
    obtain ⟨rfl, rfl⟩ := yields_pure_iff.mp second
    exact ⟨value, by simpa using first, rfl⟩
  · rintro ⟨value, first, rfl⟩
    exact ⟨value, transcript, [], first, .done _, by simp⟩

theorem yields_run_lift_bind_iff
    {action : Action α}
    {next : α -> ExceptT ε Action β}
    {result : Except ε β} :
    ((liftM action : ExceptT ε Action α) >>= next).run.Yields transcript
        result ↔
      ∃ value early late, action.Yields early value ∧
        (next value).run.Yields late result ∧ transcript = early ++ late := by
  rw [yields_run_bind_iff]
  simp only [yields_run_lift_iff]
  constructor
  · rintro (⟨_, ⟨_, _, ⟨⟩⟩, _⟩ | ⟨_, early, late, ⟨value, first, ⟨⟩⟩, second, rfl⟩)
    exact ⟨_, early, late, first, second, rfl⟩
  · rintro ⟨value, early, late, first, second, rfl⟩
    exact .inr ⟨value, early, late, ⟨value, first, rfl⟩, second, rfl⟩

theorem yields_run_exceptLift_bind_iff
    {action : Action α}
    {next : α -> ExceptT ε Action β}
    {result : Except ε β} :
    (ExceptT.lift action >>= next).run.Yields transcript result ↔
      ∃ value early late, action.Yields early value ∧
        (next value).run.Yields late result ∧ transcript = early ++ late :=
  yields_run_lift_bind_iff

@[simp] theorem yields_run_pure_iff
    {value : α}
    {result : Except ε α} :
    (pure value : ExceptT ε Action α).run.Yields transcript result ↔
      transcript = [] ∧ result = .ok value := yields_pure_iff

@[simp] theorem yields_run_throw_iff
    {failure : ε}
    {result : Except ε α} :
    (throw failure : ExceptT ε Action α).run.Yields transcript result ↔
      transcript = [] ∧ result = .error failure := yields_pure_iff

/-! ## What actions start -/

section Starting

variable {allowed : Spawn -> Prop}

/-- All processes that an action starts are allowed, whatever it is
answered. -/
def StartsOnly
    (allowed : Spawn -> Prop)
    (action : Action α) : Prop :=
  ∀ transcript result, action.Yields transcript result ->
    ∀ spawn ∈ spawns transcript, allowed spawn

/-- An action starts no process, whatever it is answered. -/
abbrev IsQuiet (action : Action α) : Prop :=
  action.StartsOnly fun _ => False

theorem IsQuiet.spawns_eq
    {action : Action α}
    {result : α}
    (quiet : action.IsQuiet)
    (yields : action.Yields transcript result) : spawns transcript = [] :=
  List.eq_nil_iff_forall_not_mem.mpr (quiet transcript result yields)

theorem startsOnly_pure (result : α) :
    (pure result : Action α).StartsOnly allowed := by
  intro transcript other yields
  obtain ⟨rfl, -⟩ := yields_pure_iff.mp yields
  simp

theorem StartsOnly.bind
    {action : Action α}
    {next : α -> Action β}
    (first : action.StartsOnly allowed)
    (second : ∀ value, (next value).StartsOnly allowed) :
    (action >>= next).StartsOnly allowed := by
  intro transcript result yields
  obtain ⟨value, early, late, yieldsFirst, yieldsSecond, rfl⟩ :=
    yields_bind_iff.mp yields
  rw [spawns_append, List.forall_mem_append]
  exact ⟨first early value yieldsFirst,
    second value late result yieldsSecond⟩

/-- A request starts what its exchange is about. -/
theorem startsOnly_request
    {request : Request}
    (about : ∀ answer, ∀ spawn ∈ Exchange.spawn? ⟨request, answer⟩,
      allowed spawn) :
    (Action.request request).StartsOnly allowed := by
  intro transcript answer yields
  obtain rfl := yields_request_iff.mp yields
  intro spawn member
  obtain ⟨exchange, isIn, isSpawn⟩ := List.mem_filterMap.mp member
  obtain rfl := List.mem_singleton.mp isIn
  exact about answer spawn isSpawn

/-- A request that is about no process starts none. -/
theorem startsOnly_of_none
    {request : Request}
    (none : ∀ answer, Exchange.spawn? ⟨request, answer⟩ = none) :
    (Action.request request).StartsOnly allowed :=
  startsOnly_request fun answer spawn isSpawn => by
    rw [none answer] at isSpawn
    cases isSpawn

/-- An action whose requests are about allowed processes starts no others. -/
theorem AsksOnly.startsOnly
    {asked : Request -> Prop}
    {action : Action α}
    (asks : action.AsksOnly asked)
    (about : ∀ request, asked request -> ∀ answer,
      ∀ spawn ∈ Exchange.spawn? ⟨request, answer⟩, allowed spawn) :
    action.StartsOnly allowed := by
  induction action with
  | done result => exact startsOnly_pure result
  | ask request next inductionHypothesis =>
      exact (startsOnly_request (about request asks.1)).bind fun answer =>
        inductionHypothesis answer (asks.2 answer)

/-- An action whose requests are about no process starts none. -/
theorem AsksOnly.startsNone
    {asked : Request -> Prop}
    {action : Action α}
    (asks : action.AsksOnly asked)
    (none : ∀ request, asked request ->
      ∀ answer, Exchange.spawn? ⟨request, answer⟩ = none) :
    action.StartsOnly allowed :=
  asks.startsOnly fun request isAsked answer spawn isSpawn => by
    rw [none request isAsked answer] at isSpawn
    cases isSpawn

theorem StartsOnly.run_bind
    {action : ExceptT ε Action α}
    {next : α -> ExceptT ε Action β}
    (first : action.run.StartsOnly allowed)
    (second : ∀ value, (next value).run.StartsOnly allowed) :
    (action >>= next).run.StartsOnly allowed := by
  rw [ExceptT.run_bind]
  refine first.bind ?_
  rintro (failure | value)
  · exact startsOnly_pure _
  · exact second value

theorem StartsOnly.run_lift
    {action : Action α}
    (starts : action.StartsOnly allowed) :
    (liftM action : ExceptT ε Action α).run.StartsOnly allowed :=
  starts.bind fun _ => startsOnly_pure _

/-- An action that starts no process can be left out of the processes that are
started with what follows it. -/
theorem IsQuiet.of_bind
    {action : Action α}
    {next : α -> Action β}
    {result : β}
    (quiet : action.IsQuiet)
    (yields : (action >>= next).Yields transcript result) :
    ∃ value late, (next value).Yields late result ∧
      spawns transcript = spawns late := by
  obtain ⟨value, early, late, first, second, rfl⟩ := yields_bind_iff.mp yields
  refine ⟨value, late, second, ?_⟩
  rw [spawns_append, quiet.spawns_eq first, List.nil_append]

theorem IsQuiet.of_run_bind
    {action : Action α}
    {next : α -> ExceptT ε Action β}
    {result : Except ε β}
    (quiet : action.IsQuiet)
    (yields : ((liftM action : ExceptT ε Action α) >>= next).run.Yields
      transcript result) :
    ∃ value late, (next value).run.Yields late result ∧
      spawns transcript = spawns late := by
  obtain ⟨value, early, late, first, second, rfl⟩ :=
    yields_run_lift_bind_iff.mp yields
  refine ⟨value, late, second, ?_⟩
  rw [spawns_append, quiet.spawns_eq first, List.nil_append]

end Starting

end Action
end LockBench
