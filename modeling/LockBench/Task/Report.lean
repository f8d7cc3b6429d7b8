import LockBench.Failure

/-!
# Reporting exported timings
-/

namespace LockBench

/-- The directory of exported timings: the one that was asked for, or else the
one that is configured, or else a fixed one. -/
def Config.resultsDirOr
    (config : Config)
    (asked : Option Path) : Path :=
  (asked.or (config.resultsDir.map Path.mk)).getD ⟨"bench-results"⟩

/-- A report that was asked for. -/
structure ReportTask where
  /-- The directory of exported timings. -/
  dir : Option Path := none
  deriving DecidableEq, Repr

/-- Print a report. -/
def ReportTask.perform
    (task : ReportTask)
    (journal : Journal)
    (config : Config) : Attempt Unit := do
  let tables ← Attempt.lift .report
    (Report.load (config.resultsDirOr task.dir))
  Action.print (Report.render journal.colored tables)

end LockBench
