import LockBench.Session.Group

/-!
# The groups of a session

An operation has a group exactly where some suite supports it.  The commands
of the group are those of the suites that do, in order.
-/

namespace LockBench
namespace Group

theorem collect?_eq_some_iff
    (suites : List Suite)
    (operation : Operation)
    (group : Group) :
    collect? suites operation = some group ↔
      group = ⟨operation, suites.filterMap (·.command? operation)⟩ ∧
        group.commands ≠ [] := by
  rw [collect?]
  split
  · rename_i noCommand
    simp only [noCommand, reduceCtorEq, false_iff, not_and]
    rintro rfl someCommand
    exact someCommand rfl
  · rename_i commands someCommand
    rw [Option.some.injEq, eq_comm]
    refine (and_iff_left_of_imp ?_).symm
    rintro rfl
    exact someCommand

/-- There is no group exactly where no suite supports the operation. -/
theorem collect?_eq_none_iff
    (suites : List Suite)
    (operation : Operation) :
    collect? suites operation = none ↔
      ∀ suite ∈ suites, operation ∉ suite.operations := by
  have commands_eq_nil_iff : suites.filterMap (·.command? operation) = [] ↔
      ∀ suite ∈ suites, operation ∉ suite.operations := by
    rw [List.filterMap_eq_nil_iff]
    refine forall₂_congr fun suite _ => ?_
    rw [← suite.command?_isSome_iff, Option.not_isSome_iff_eq_none]
  rw [← commands_eq_nil_iff, collect?]
  split
  · rename_i noCommand
    simp [noCommand]
  · rename_i commands someCommand
    simp only [reduceCtorEq, false_iff]
    exact someCommand

/-- Every command of a group is that of a suite. -/
theorem exists_suite_of_mem
    {suites : List Suite}
    {operation : Operation}
    {group : Group}
    (collected : collect? suites operation = some group)
    {command : Command}
    (member : command ∈ group.commands) :
    ∃ suite ∈ suites, suite.command? operation = some command := by
  obtain ⟨rfl, _⟩ := (collect?_eq_some_iff _ _ _).mp collected
  exact List.mem_filterMap.mp member

end Group
end LockBench
