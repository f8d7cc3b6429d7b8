import LockBench.Proofs.Host.Transcripts
import LockBench.Proofs.Session.Scenes

/-!
# The turns of a run

A run in a scene can be observed turn by turn: every request with its answer,
and the files before and after it.  The turns of a run tell its transcript, and
each of them is one that the scene allows.
-/

namespace LockBench

/-- A turn of a run. -/
structure Turn where
  /-- The request and its answer. -/
  exchange : Exchange
  /-- The files before it. -/
  before : FileTree
  /-- The files after it. -/
  after : FileTree

namespace Turn

/-- The transcript of some turns. -/
def transcript (turns : List Turn) : List Exchange :=
  turns.map Turn.exchange

@[simp] theorem transcript_append (early late : List Turn) :
    transcript (early ++ late) = transcript early ++ transcript late :=
  List.map_append

/-- A turn changes what is at a location to some node. -/
def Puts
    (location : Location)
    (node : Node)
    (turn : Turn) : Prop :=
  turn.before.get? location ≠ some node ∧ turn.after.get? location = some node

end Turn

namespace Scene

/-- The world of a scene in which every turn is observed. -/
def turnwise (scene : Scene μ) : World Turn :=
  fun request tree answer turns last =>
    scene.Allows request tree answer last ∧
      turns = [⟨⟨request, answer⟩, tree, last⟩]

variable {scene : Scene μ} {tree last : FileTree} {turns : List Turn}

theorem yields_of_runs
    {action : Action α}
    {result : α}
    (runs : action.Runs scene.turnwise tree result turns last) :
    action.Yields (Turn.transcript turns) result := by
  induction runs with
  | done result tree => exact .done result
  | ask answered continued inductionHypothesis =>
      obtain ⟨_, rfl⟩ := answered
      exact .ask _ inductionHypothesis

/-- Every turn of a run is one that its scene allows. -/
theorem allows_of_mem
    {action : Action α}
    {result : α}
    (runs : action.Runs scene.turnwise tree result turns last)
    {turn : Turn}
    (isTurn : turn ∈ turns) :
    scene.Allows turn.exchange.1 turn.before turn.exchange.2 turn.after := by
  induction runs with
  | done result tree => cases isTurn
  | ask answered continued inductionHypothesis =>
      obtain ⟨allows, rfl⟩ := answered
      rcases List.mem_append.mp isTurn with isFirst | isLater
      · obtain rfl := List.mem_singleton.mp isFirst
        exact allows
      · exact inductionHypothesis isLater

/-- A host without variables on which every turn is observed. -/
def turnHost (processes : Processes) : Action.Host Turn :=
  fun request tree =>
    let (answer, last) := reply processes request tree
    (answer, [⟨⟨request, answer⟩, tree, last⟩], last)

/-- A scene in which processes always do the same, and nothing else is
observed. -/
def acting (processes : Processes) : Scene Empty :=
  ofProcesses processes fun _ _ _ => []

theorem possible_turnHost
    (processes : Processes)
    (request : Request)
    (tree : FileTree) :
    (acting processes).turnwise request tree
      (turnHost processes request tree).1 (turnHost processes request tree).2.1
      (turnHost processes request tree).2.2 :=
  ⟨(possible_host processes (fun _ _ _ => ([] : List Empty)) request tree).1,
    rfl⟩

end Scene
end LockBench
