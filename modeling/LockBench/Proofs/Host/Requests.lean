import LockBench.Host.Action

/-!
# What actions ask for

Much of what holds of an action holds for the requests that it can make, in
whatever order it makes them and whatever it is answered.  The requests of an
action are those of the parts that it is put together from.
-/

namespace LockBench
namespace Action

/-- Every request of an action is one of those asked, whatever it is
answered. -/
def AsksOnly (asked : Request -> Prop) : Action α -> Prop
  | .done _ => True
  | .ask request next =>
    asked request ∧ ∀ answer, (next answer).AsksOnly asked

variable {asked : Request -> Prop}

theorem asksOnly_pure (result : α) :
    (pure result : Action α).AsksOnly asked := trivial

theorem asksOnly_request
    {request : Request}
    (isAsked : asked request) : (Action.request request).AsksOnly asked :=
  ⟨isAsked, fun _ => trivial⟩

theorem AsksOnly.bind
    {action : Action α}
    {next : α -> Action β}
    (first : action.AsksOnly asked)
    (second : ∀ result, (next result).AsksOnly asked) :
    (action >>= next).AsksOnly asked := by
  change (action.bind next).AsksOnly asked
  induction action with
  | done result => exact second result
  | ask request continuation inductionHypothesis =>
      exact ⟨first.1, fun answer =>
        inductionHypothesis answer (first.2 answer)⟩

/-- More requests may be asked. -/
theorem AsksOnly.mono
    {action : Action α}
    {others : Request -> Prop}
    (asks : action.AsksOnly asked)
    (implies : ∀ request, asked request -> others request) :
    action.AsksOnly others := by
  induction action with
  | done result => trivial
  | ask request next inductionHypothesis =>
      exact ⟨implies request asks.1, fun answer =>
        inductionHypothesis answer (asks.2 answer)⟩

theorem asksOnly_forM
    {items : List α}
    {action : α -> Action PUnit}
    (each : ∀ item, (action item).AsksOnly asked) :
    (items.forM action).AsksOnly asked := by
  induction items with
  | nil => exact asksOnly_pure _
  | cons item rest inductionHypothesis =>
      exact (each item).bind fun _ => inductionHypothesis

/-! ## Actions that may fail -/

theorem AsksOnly.run_bind
    {action : ExceptT ε Action α}
    {next : α -> ExceptT ε Action β}
    (first : action.run.AsksOnly asked)
    (second : ∀ value, (next value).run.AsksOnly asked) :
    (action >>= next).run.AsksOnly asked := by
  rw [ExceptT.run_bind]
  refine first.bind ?_
  rintro (failure | value)
  · exact asksOnly_pure _
  · exact second value

theorem AsksOnly.run_lift
    {action : Action α}
    (asks : action.AsksOnly asked) :
    (liftM action : ExceptT ε Action α).run.AsksOnly asked :=
  asks.bind fun _ => asksOnly_pure _

end Action
end LockBench
