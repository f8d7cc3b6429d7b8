import LockBench.Config.Store
import LockBench.Proofs.Config.Document
import LockBench.Proofs.Host.Written

/-!
# Saved configurations load back

A path is writable where the directories above it can be made and a file can be
written there after that, whatever its content.  A configuration that is saved
to such a path is loaded from it as it was.
-/

namespace LockBench
namespace Config

/-- The files after the directories above a path were made. -/
def madeAbove
    (machine : Machine)
    (path : Path) : Except OsError FileTree :=
  match path.parent? with
  | none => .ok machine.tree
  | some parent => machine.tree.makeDirs machine.workingDir parent

/-- The directories above a path can be made, and it takes some content
then. -/
def IsWritable
    (machine : Machine)
    (path : Path) : Prop :=
  ∃ made content after, madeAbove machine path = .ok made ∧
    made.write machine.workingDir path content = .ok after

variable (config : Config) {machine : Machine} {path : Path}

/-- Saving writes the text of the configuration after the directories were
made. -/
theorem runOn_saveTo
    {made after : FileTree}
    (madeDirs : madeAbove machine path = .ok made)
    (written : made.write machine.workingDir path config.toText.toUTF8 =
      .ok after) :
    (config.saveTo path).runOn machine =
      (.ok (), { machine with tree := after }) := by
  rw [madeAbove] at madeDirs
  rw [saveTo]
  cases above : path.parent? with
  | none =>
      simp only [above, Except.ok.injEq] at madeDirs
      subst madeDirs
      simp only
      rw [Action.runOn_bind, Action.runOn_pure]
      simp only
      rw [Action.runOn_bind, Action.runOn_writeText, written]
      rfl
  | some parent =>
      simp only [above] at madeDirs
      simp only
      rw [Action.runOn_bind, Action.runOn_makeDirs, Machine.makeDirs, madeDirs]
      rw [Action.runOn_bind, Action.runOn_writeText]
      simp only [written]
      rfl

/-- A file that holds a configuration's text is loaded as the
configuration. -/
theorem runOn_loadFrom
    {location : Location}
    {executable : Bool}
    (leads : machine.tree.Leads machine.workingDir path location
      (.file config.toText.toUTF8 executable)) :
    (loadFrom path).runOn machine = (.ok config, machine) := by
  rw [loadFrom, Action.runOn_bind, Action.runOn_pathExists leads]
  simp only [if_true]
  rw [Action.runOn_bind, Action.runOn_readText leads]
  simp only [ofText?_toText]
  rfl

/-- Whatever a configuration is, saving it to a writable path succeeds, and
loading it from there gives it back. -/
theorem saved_loads_back
    (writable : IsWritable machine path) :
    ∃ after, (config.saveTo path).runOn machine = (.ok (), after) ∧
      (loadFrom path).runOn after = (.ok config, after) := by
  obtain ⟨made, content, other, madeDirs, takesOther⟩ := writable
  obtain ⟨location, executable, placed, noDirectory, noSlash, takes⟩ :=
    FileTree.write_eq_ok takesOther
  refine ⟨_, config.runOn_saveTo madeDirs (takes config.toText.toUTF8), ?_⟩
  exact config.runOn_loadFrom
    (FileTree.leads_put placed noDirectory noSlash _ executable)

/-- A configuration of awkward texts, partly unset. -/
def awkward : Config where
  warmup := some 0
  runs := some 4294967295
  resultsDir := some ""
  fixturesDir := some "\x27\x27\x27\x22\x22\x22\\n"
  projectName := some "one\r\ntwo\x00\x1b\u00e9"
  tools := { ripenv := ["a b", "\x22\x27"], uv := [""] }

/-- A machine with nothing but its root. -/
def bareMachine : Machine where
  tree := .empty
  workingDir := []
  environment := []
  behavior := fun _ => none
  time := ""
  freshNames := []

theorem saved_loads_back_awkward :
    IsWritable bareMachine ⟨"a/./b.toml"⟩ ∧
      ∃ after, (awkward.saveTo ⟨"a/./b.toml"⟩).runOn bareMachine =
          (.ok (), after) ∧
        (loadFrom ⟨"a/./b.toml"⟩).runOn after = (.ok awkward, after) :=
  have writable : IsWritable bareMachine ⟨"a/./b.toml"⟩ :=
    ⟨_, .empty, _, rfl, rfl⟩
  ⟨writable, saved_loads_back awkward writable⟩

end Config
end LockBench
