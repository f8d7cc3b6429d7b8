import LockBench.Proofs.Session.Launches
import LockBench.Proofs.Shell.Operators

/-!
# Installing by locking and syncing

Where a tool has no step of its own to install, the line of an installation is
that of a lock and that of a sync, the second of which runs only if the first
succeeded.  What the paths are made of does not matter.
-/

namespace LockBench
namespace Suite

section Uv

variable {suite : Suite} {operation : Operation}

/-- Every operation is supported, and none but an installation is more than
the words of its step. -/
theorem command?_eq_words
    (isUv : suite.tool = .uv)
    (installsNot : operation.step ≠ .install) :
    ∃ command, suite.command? operation = some command ∧
      command.invocation = .words (suite.words operation.step) := by
  have supported : operation ∈ suite.operations := by
    rw [operations, isUv]
    exact Operation.mem_all operation
  refine ⟨_, if_pos supported, ?_⟩
  rcases suite.launches_cases operation.step with
    ⟨-, installs, -⟩ | ⟨invocation_eq, -⟩
  · exact absurd installs installsNot
  · exact invocation_eq

/-- An installation is an expression for a shell, which is all of its line. -/
theorem command?_eq_expression
    (isUv : suite.tool = .uv)
    (installs : operation.step = .install) :
    ∃ command, suite.command? operation = some command ∧
      command.invocation = .expression (Shell.join (suite.words .lock) ++
        " && " ++ Shell.join (suite.words .sync)) ∧
      command.shellLine = Shell.join (suite.words .lock) ++ " && " ++
        Shell.join (suite.words .sync) := by
  have supported : operation ∈ suite.operations := by
    rw [operations, isUv]
    exact Operation.mem_all operation
  have invocation_eq : suite.invocation operation.step =
      .expression (Shell.join (suite.words .lock) ++ " && " ++
        Shell.join (suite.words .sync)) := by
    simp [invocation, isUv, installs]
  refine ⟨_, if_pos supported, invocation_eq, ?_⟩
  simp [Command.shellLine, Command.directoryPart, Command.invocationPart,
    invocation_eq, environment, directory, isUv]

/-- An installation is a lock and then a sync, by exactly the words of the
lock and the sync of the same suite, whatever its paths are. -/
theorem install_locks_then_syncs
    (isUv : suite.tool = .uv)
    (nulFree : suite.context.NulFree)
    {install lock sync : Operation}
    (installs : install.step = .install)
    (locks : lock.step = .lock)
    (syncs : sync.step = .sync) :
    ∃ expression lockWords syncWords,
      (∃ command, suite.command? install = some command ∧
        command.invocation = .expression expression ∧
        command.shellLine = expression) ∧
      (∃ command, suite.command? lock = some command ∧
        command.invocation = .words lockWords) ∧
      (∃ command, suite.command? sync = some command ∧
        command.invocation = .words syncWords) ∧
      Shell.Chains expression lockWords syncWords := by
  have startable := startable_of_nulFree nulFree
    (fun isRipenv => by simp [isUv] at isRipenv) .lock
  refine ⟨_, suite.words .lock, suite.words .sync,
    command?_eq_expression isUv installs, ?_, ?_,
    .of_andList? (andList?_join startable .lock .sync)⟩
  · rw [← locks]
    exact command?_eq_words isUv (by simp [locks])
  · rw [← syncs]
    exact command?_eq_words isUv (by simp [syncs])

/-- Operators, quotes and expansions in the paths are parts of words. -/
theorem install_locks_then_syncs_awkward :
    let suite : Suite :=
      { tool := .uv
        context :=
          { binary := ⟨"/my bin/u'v && rm -rf \x22$HOME\x22; #"⟩
            label := "uv"
            workingDir := ⟨"/tmp/$(true)\n| > \x60x\x60"⟩
            cacheDir := ⟨"^!*~ \\ 'c'"⟩ } }
    suite.tool = .uv ∧ suite.context.NulFree ∧
      ∃ expression lockWords syncWords,
        (∃ command, suite.command? .installWarm = some command ∧
          command.invocation = .expression expression ∧
          command.shellLine = expression) ∧
        (∃ command, suite.command? .lockNoop = some command ∧
          command.invocation = .words lockWords) ∧
        (∃ command, suite.command? .syncCold = some command ∧
          command.invocation = .words syncWords) ∧
        Shell.Chains expression lockWords syncWords := by
  intro suite
  have nulFree : suite.context.NulFree :=
    ⟨by decide, by decide, by decide⟩
  exact ⟨rfl, nulFree, install_locks_then_syncs rfl nulFree rfl rfl rfl⟩

end Uv

end Suite
end LockBench
