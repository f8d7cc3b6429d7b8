import LockBench.Host.FileTree
import LockBench.Proofs.Host.Requests

/-!
# Runs of actions

A world says what a host may answer to a request, what becomes of the files,
and which moments of the programs that it runs can be observed meanwhile.  A
run of an action answers its requests one after another.  What holds of all
runs is a condition on the tree of requests, which follows the parts that an
action is put together from.
-/

namespace LockBench

/-- What may come of a request: the files before it, the answer, the moments
observed meanwhile, and the files after it. -/
abbrev World (μ : Type) :=
  (request : Request) -> FileTree -> request.Answer -> List μ -> FileTree ->
    Prop

namespace Action

/-- An action may run from some files to a result and other files, with some
moments observed on the way. -/
inductive Runs
    (world : World μ) :
    Action α -> FileTree -> α -> List μ -> FileTree -> Prop
  | done (result : α) (tree : FileTree) :
      Runs world (.done result) tree result [] tree
  | ask
      {request : Request}
      {next : request.Answer -> Action α}
      {tree middle last : FileTree}
      {answer : request.Answer}
      {moments rest : List μ}
      {result : α}
      (answered : world request tree answer moments middle)
      (continued : Runs world (next answer) middle result rest last) :
      Runs world (.ask request next) tree result (moments ++ rest) last

/-- Every run from some files observes only good moments, and what it ends
with is as required. -/
def Ensures
    (world : World μ)
    (good : μ -> Prop)
    (required : α -> FileTree -> Prop) : Action α -> FileTree -> Prop
  | .done result, tree => required result tree
  | .ask request next, tree =>
    ∀ answer moments middle, world request tree answer moments middle ->
      (∀ moment ∈ moments, good moment) ∧
        (next answer).Ensures world good required middle

variable {world : World μ} {good : μ -> Prop}

/-- What is ensured holds of every run. -/
theorem Runs.of_ensures
    {action : Action α}
    {required : α -> FileTree -> Prop}
    {tree last : FileTree}
    {result : α}
    {moments : List μ}
    (runs : action.Runs world tree result moments last)
    (ensures : action.Ensures world good required tree) :
    (∀ moment ∈ moments, good moment) ∧ required result last := by
  induction runs with
  | done result tree => exact ⟨by simp, ensures⟩
  | ask answered continued inductionHypothesis =>
      obtain ⟨goodFirst, ensuresRest⟩ := ensures _ _ _ answered
      obtain ⟨goodRest, holds⟩ := inductionHypothesis ensuresRest
      refine ⟨?_, holds⟩
      intro moment member
      exact (List.mem_append.mp member).elim (goodFirst moment)
        (goodRest moment)

@[simp] theorem ensures_pure
    (required : α -> FileTree -> Prop)
    (result : α)
    (tree : FileTree) :
    (pure result : Action α).Ensures world good required tree ↔
      required result tree := Iff.rfl

/-- Two actions one after another ensure what the first one ensures the second
one to ensure. -/
@[simp] theorem ensures_bind
    (action : Action α)
    (next : α -> Action β)
    (required : β -> FileTree -> Prop)
    (tree : FileTree) :
    (action >>= next).Ensures world good required tree ↔
      action.Ensures world good
        (fun result middle =>
          (next result).Ensures world good required middle) tree := by
  change (action.bind next).Ensures world good required tree ↔ _
  induction action generalizing tree with
  | done result => rfl
  | ask request continuation inductionHypothesis =>
      simp only [Action.bind, Ensures, inductionHypothesis]

theorem Ensures.mono
    {action : Action α}
    {required weaker : α -> FileTree -> Prop}
    {tree : FileTree}
    (ensures : action.Ensures world good required tree)
    (implies : ∀ result last, required result last -> weaker result last) :
    action.Ensures world good weaker tree := by
  induction action generalizing tree with
  | done result => exact implies result tree ensures
  | ask request next inductionHypothesis =>
      intro answer moments middle answered
      obtain ⟨isGood, rest⟩ := ensures answer moments middle answered
      exact ⟨isGood, inductionHypothesis answer rest⟩

/-- Nothing need be known of an action to say nothing of it. -/
theorem ensures_nothing
    (action : Action α)
    (tree : FileTree) :
    action.Ensures world (fun _ => True) (fun _ _ => True) tree := by
  induction action generalizing tree with
  | done result => trivial
  | ask request next inductionHypothesis =>
      exact fun answer _ middle _ =>
        ⟨fun _ _ => trivial, inductionHypothesis answer middle⟩

/-! ## Actions that may fail -/

/-- What follows an action that fails is left out. -/
theorem ensures_run_bind
    (action : ExceptT ε Action α)
    (next : α -> ExceptT ε Action β)
    (required : Except ε β -> FileTree -> Prop)
    (tree : FileTree) :
    (action >>= next).run.Ensures world good required tree ↔
      action.run.Ensures world good
        (fun result middle =>
          match result with
          | .ok value => (next value).run.Ensures world good required middle
          | .error failure => required (.error failure) middle) tree := by
  rw [ExceptT.run_bind, ensures_bind]
  constructor <;> intro ensures <;> refine ensures.mono ?_
  · rintro (failure | value) middle holds <;> exact holds
  · rintro (failure | value) middle holds <;> exact holds

theorem ensures_run_lift
    (action : Action α)
    (required : Except ε α -> FileTree -> Prop)
    (tree : FileTree) :
    (liftM action : ExceptT ε Action α).run.Ensures world good required tree ↔
      action.Ensures world good (fun result => required (.ok result)) tree := by
  change (action >>= fun result => pure (.ok result)).Ensures world good
    required tree ↔ _
  rw [ensures_bind]
  rfl

/-! ## Actions with a state -/

/-- What follows an action starts from the state that the action leaves. -/
theorem ensures_state_bind
    (action : StateT σ Action α)
    (next : α -> StateT σ Action β)
    (state : σ)
    (required : β × σ -> FileTree -> Prop)
    (tree : FileTree) :
    ((action >>= next).run state).Ensures world good required tree ↔
      (action.run state).Ensures world good
        (fun left middle =>
          ((next left.1).run left.2).Ensures world good required middle)
        tree := by
  rw [StateT.run_bind, ensures_bind]

theorem ensures_state_lift
    (action : Action α)
    (state : σ)
    (required : α × σ -> FileTree -> Prop)
    (tree : FileTree) :
    ((liftM action : StateT σ Action α).run state).Ensures world good required
        tree ↔
      action.Ensures world good (fun result => required (result, state))
        tree := by
  rw [StateT.run_monadLift, monadLift_self, ensures_bind]
  rfl

/-! ## What actions keep -/

/-- An action keeps a property of files whatever comes of it. -/
def Keeps
    (world : World μ)
    (good : μ -> Prop)
    (kept : FileTree -> Prop)
    (action : Action α) : Prop :=
  ∀ tree, kept tree -> action.Ensures world good (fun _ => kept) tree

theorem keeps_pure
    (kept : FileTree -> Prop)
    (result : α) : Keeps world good kept (pure result : Action α) :=
  fun _ holds => holds

theorem Keeps.bind
    {kept : FileTree -> Prop}
    {action : Action α}
    {next : α -> Action β}
    (first : Keeps world good kept action)
    (second : ∀ result, Keeps world good kept (next result)) :
    Keeps world good kept (action >>= next) := by
  intro tree holds
  rw [ensures_bind]
  exact (first tree holds).mono fun result last => second result last

/-- An action keeps what each of its requests keeps. -/
theorem AsksOnly.keeps
    {asked : Request -> Prop}
    {kept : FileTree -> Prop}
    {action : Action α}
    (asks : action.AsksOnly asked)
    (each : ∀ request, asked request ->
      Keeps world good kept (Action.request request)) :
    Keeps world good kept action := by
  induction action with
  | done result => exact keeps_pure kept result
  | ask request next inductionHypothesis =>
      exact (each request asks.1).bind fun answer =>
        inductionHypothesis answer (asks.2 answer)

/-! ## Hosts that answer in one way -/

/-- What a host answers, observes and leaves. -/
abbrev Host (μ : Type) :=
  (request : Request) -> FileTree -> request.Answer × List μ × FileTree

/-- The result of an action on a host, the moments observed, and the files
that are left. -/
def on
    (host : Host μ) : Action α -> FileTree -> α × List μ × FileTree
  | .done result, tree => (result, [], tree)
  | .ask request next, tree =>
    let (answer, moments, middle) := host request tree
    let (result, rest, last) := (next answer).on host middle
    (result, moments ++ rest, last)

/-- A host whose answers are possible in a world runs actions as that world
allows. -/
theorem runs_on
    {host : Host μ}
    (possible : ∀ request tree,
      world request tree (host request tree).1 (host request tree).2.1
        (host request tree).2.2)
    (action : Action α)
    (tree : FileTree) :
    action.Runs world tree (action.on host tree).1 (action.on host tree).2.1
      (action.on host tree).2.2 := by
  induction action generalizing tree with
  | done result => exact .done result tree
  | ask request next inductionHypothesis =>
      exact .ask (possible request tree) (inductionHypothesis _ _)

end Action
end LockBench
