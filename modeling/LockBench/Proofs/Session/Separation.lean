import LockBench.Fixture
import LockBench.Proofs.Session.Directories
import Mathlib.Data.List.Nodup

/-!
# The directories of a session are separate

All directories that a session makes are named in its own directory, that of a
bundled fixture among them.  The names differ, so no directory lies at or in
another one, by its text as well as from every place that a path may start at.
-/

namespace LockBench

namespace Path

/-- Neither of two directories is the other one or lies in it. -/
structure Apart (dir other : Path) : Prop where
  /-- Their texts differ. -/
  different : dir ≠ other
  /-- The steps to one are not the first steps to the other. -/
  stepsApart : ¬dir.steps <+: other.steps ∧ ¬other.steps <+: dir.steps
  /-- Neither location is at or below the other. -/
  locationsApart : ∀ workingDir,
    ¬dir.locationFrom workingDir <+: other.locationFrom workingDir ∧
      ¬other.locationFrom workingDir <+: dir.locationFrom workingDir

/-- Two lists that end differently and share the rest. -/
theorem not_prefix_concat
    (front : List String)
    {last other : String}
    (different : last ≠ other) : ¬front ++ [last] <+: front ++ [other] := by
  simpa [List.prefix_append_right_inj] using different

/-- Directories with different names in one directory are apart. -/
theorem apart_join
    (dir : Path)
    {name other : String}
    (isName : IsName name)
    (isOther : IsName other)
    (different : name ≠ other) : Apart (dir.join name) (dir.join other) := by
  have stepsApart : ¬(dir.join name).steps <+: (dir.join other).steps ∧
      ¬(dir.join other).steps <+: (dir.join name).steps := by
    rw [steps_join dir isName, steps_join dir isOther]
    exact ⟨not_prefix_concat _ different,
      not_prefix_concat _ (Ne.symm different)⟩
  refine ⟨?_, stepsApart, fun workingDir => ?_⟩
  · intro same
    exact stepsApart.1 (by simp [same])
  · rw [locationFrom_join workingDir dir isName,
      locationFrom_join workingDir dir isOther]
    exact ⟨not_prefix_concat _ different,
      not_prefix_concat _ (Ne.symm different)⟩

end Path

namespace Session

/-! ## Names -/

/-- The slots of a tool's binaries, two for each of them. -/
def slotsOf
    (tool : Tool)
    (count : Nat) : List Slot :=
  (List.range count).flatMap fun index =>
    [⟨tool, index, false⟩, ⟨tool, index, true⟩]

theorem mem_slotsOf_iff
    {tool : Tool}
    {count : Nat}
    {slot : Slot} :
    slot ∈ slotsOf tool count ↔ slot.tool = tool ∧ slot.index < count := by
  obtain ⟨slotTool, index, cached⟩ := slot
  cases cached <;> simp [slotsOf, and_comm, eq_comm]

theorem nodup_slotsOf
    (tool : Tool)
    (count : Nat) : (slotsOf tool count).Nodup := by
  rw [slotsOf, List.nodup_flatMap]
  refine ⟨by simp, ?_⟩
  apply List.nodup_range.imp
  intro index other different slot
  simp only [List.mem_cons, List.not_mem_nil, or_false]
  grind

/-- The names of the directories of some tools with their binaries. -/
def slotNames (tools : List (Tool × List Path)) : List String :=
  tools.flatMap fun entry =>
    (slotsOf entry.1 entry.2.length).map fun slot =>
      slot.name entry.2.length

theorem nodup_slotNames
    {tools : List (Tool × List Path)}
    (different : (tools.map Prod.fst).Nodup) : (slotNames tools).Nodup := by
  rw [slotNames, List.nodup_flatMap]
  constructor
  · intro entry _
    apply List.Nodup.map_on _ (nodup_slotsOf entry.1 entry.2.length)
    intro slot member other otherMember same
    exact Slot.name_injective (mem_slotsOf_iff.mp member).2
      (mem_slotsOf_iff.mp otherMember).2 (fun _ => rfl) same
  · apply (List.pairwise_map.mp different).imp
    intro entry other differ name inEntry inOther
    obtain ⟨slot, member, rfl⟩ := List.mem_map.mp inEntry
    obtain ⟨otherSlot, otherMember, same⟩ := List.mem_map.mp inOther
    obtain ⟨tool_eq, within⟩ := mem_slotsOf_iff.mp member
    obtain ⟨otherTool_eq, otherWithin⟩ := mem_slotsOf_iff.mp otherMember
    have sameTool : otherSlot.tool = slot.tool := by
      apply Tool.eq_of_initial_eq
      rw [← otherSlot.head?_name other.2.length, same, Slot.head?_name]
    exact differ (by rw [← tool_eq, ← sameTool, otherTool_eq])

/-- The name of the directory of a bundled fixture. -/
def fixtureName (fixture : Bundled) : String :=
  "fixture-" ++ fixture.name

theorem isName_fixtureName
    {fixture : Bundled}
    (isBundled : fixture ∈ Bundled.all) :
    Path.IsName (fixtureName fixture) := by
  have areNames : ∀ name ∈ Bundled.all.map Bundled.name,
      Path.IsName ("fixture-" ++ name) := by decide
  exact areNames _ (List.mem_map_of_mem isBundled)

/-- No tool starts as the directory of a fixture does. -/
theorem fixtureName_not_mem
    (fixture : Bundled)
    (tools : List (Tool × List Path)) :
    fixtureName fixture ∉ slotNames tools := by
  intro member
  obtain ⟨entry, -, member⟩ := List.mem_flatMap.mp member
  obtain ⟨slot, -, name_eq⟩ := List.mem_map.mp member
  have initial := slot.head?_name entry.2.length
  rw [name_eq] at initial
  cases tool_eq : slot.tool <;>
    simp [fixtureName, tool_eq, Tool.name] at initial

/-! ## Directories -/

/-- The directories that are planned for some tools with their binaries. -/
def plannedDirectories
    (sessionDir : Path)
    (tools : List (Tool × List Path)) : List Path :=
  tools.flatMap fun (tool, binaries) =>
    (planContexts tool sessionDir binaries).flatMap fun context =>
      [context.workingDir, context.cacheDir]

theorem planContexts_eq
    (tool : Tool)
    (sessionDir : Path)
    (binaries : List Path) :
    planContexts tool sessionDir binaries =
      binaries.zipIdx.map fun (binary, index) =>
        planContext tool sessionDir binaries.length index binary := by
  rw [planContexts, List.mapIdx_eq_zipIdx_map]

theorem binaries_planContexts
    (tool : Tool)
    (sessionDir : Path)
    (binaries : List Path) :
    (planContexts tool sessionDir binaries).map Context.binary = binaries := by
  rw [planContexts_eq, List.map_map]
  exact List.zipIdx_map_fst 0 binaries

/-- What is planned for the binaries of a tool are its slots. -/
theorem flatMap_planContexts
    (tool : Tool)
    (sessionDir : Path)
    (binaries : List Path) :
    (planContexts tool sessionDir binaries).flatMap
        (fun context => [context.workingDir, context.cacheDir]) =
      (slotsOf tool binaries.length).map fun slot =>
        sessionDir.join (slot.name binaries.length) := by
  have indices : binaries.zipIdx.map Prod.snd = List.range binaries.length := by
    rw [List.zipIdx_map_snd, List.range_eq_range']
  rw [planContexts_eq, slotsOf, ← indices, List.flatMap_map, List.flatMap_map,
    List.map_flatMap]
  simp only [(dirs_planContext _ _ _ _ _).1, (dirs_planContext _ _ _ _ _).2,
    List.map_cons, List.map_nil]

theorem plannedDirectories_eq
    (sessionDir : Path)
    (tools : List (Tool × List Path)) :
    plannedDirectories sessionDir tools =
      (slotNames tools).map sessionDir.join := by
  simp only [plannedDirectories, slotNames, List.map_flatMap, List.map_map,
    flatMap_planContexts]
  rfl

/-- The directories of a session are named differently in the session's own
one and apart from each other, and every binary has its context. -/
theorem directories_apart
    {tools : List (Tool × List Path)}
    (different : (tools.map Prod.fst).Nodup)
    (sessionDir : Path)
    {fixture : Bundled}
    (isBundled : fixture ∈ Bundled.all) :
    let directories := Fixture.directory sessionDir fixture ::
      plannedDirectories sessionDir tools
    directories.Pairwise Path.Apart ∧
      (∀ dir ∈ directories, ∃ name, Path.IsName name ∧
        dir = sessionDir.join name) ∧
      ∀ entry ∈ tools,
        (planContexts entry.1 sessionDir entry.2).map Context.binary =
          entry.2 := by
  intro directories
  have directories_eq : directories =
      (fixtureName fixture :: slotNames tools).map sessionDir.join := by
    rw [List.map_cons, ← plannedDirectories_eq]
    rfl
  have areNames : ∀ name ∈ fixtureName fixture :: slotNames tools,
      Path.IsName name := by
    rw [List.forall_mem_cons]
    refine ⟨isName_fixtureName isBundled, fun name member => ?_⟩
    obtain ⟨entry, -, member⟩ := List.mem_flatMap.mp member
    obtain ⟨slot, -, rfl⟩ := List.mem_map.mp member
    exact slot.isName_name entry.2.length
  have differ : (fixtureName fixture :: slotNames tools).Nodup :=
    List.nodup_cons.mpr
      ⟨fixtureName_not_mem fixture tools, nodup_slotNames different⟩
  refine ⟨?_, ?_, fun entry _ => ?_⟩
  · rw [directories_eq, List.pairwise_map]
    exact differ.imp_of_mem fun member otherMember different =>
      Path.apart_join sessionDir (areNames _ member) (areNames _ otherMember)
        different
  · intro dir member
    rw [directories_eq] at member
    obtain ⟨name, isNamed, rfl⟩ := List.mem_map.mp member
    exact ⟨name, areNames name isNamed, rfl⟩
  · exact binaries_planContexts entry.1 sessionDir entry.2

theorem directories_apart_repeated :
    let tools : List (Tool × List Path) :=
      [(.uv, [⟨"/bin/uv"⟩, ⟨"/bin/uv"⟩]), (.ripenv, []), (.pipenv, [⟨"p"⟩])]
    let fixture : Bundled := .ofDependencies "trio" [("trio", "*")] []
    (tools.map Prod.fst).Nodup ∧ fixture ∈ Bundled.all ∧
      let directories := Fixture.directory ⟨"../s"⟩ fixture ::
        plannedDirectories ⟨"../s"⟩ tools
      directories.Pairwise Path.Apart ∧
        (∀ dir ∈ directories, ∃ name, Path.IsName name ∧
          dir = Path.join ⟨"../s"⟩ name) ∧
        ∀ entry ∈ tools,
          (planContexts entry.1 ⟨"../s"⟩ entry.2).map Context.binary =
            entry.2 := by
  intro tools fixture
  have different : (tools.map Prod.fst).Nodup := by decide
  have isBundled : fixture ∈ Bundled.all := by simp [Bundled.all, fixture]
  exact ⟨different, isBundled, directories_apart different ⟨"../s"⟩ isBundled⟩

end Session
end LockBench
