import LockBench.Proofs.Host.Walk
import LockBench.Session.Plan

/-!
# The directories of a session

Every binary has two directories in the session's directory, one to work in
and one for its cache.  No two of them have the same name, whatever the tools
and however many binaries of each there are.
-/

namespace LockBench

/-- Tools are told apart by the first letters of their names. -/
theorem Tool.eq_of_initial_eq
    {tool other : Tool}
    (same : tool.name.toList.head? = other.name.toList.head?) :
    tool = other := by
  cases tool <;> cases other <;> first | rfl | simp [Tool.name] at same

namespace Session

/-! ## The marks of binaries -/

/-- A mark is a dash and digits, or nothing. -/
theorem mem_indexMark
    {count index : Nat}
    {c : Char}
    (present : c ∈ (indexMark count index).toList) :
    c = '-' ∨ c.isDigit = true := by
  rw [indexMark] at present
  split at present
  · simp only [String.toList_append, List.mem_append] at present
    rcases present with isDash | inNumber
    · exact .inl (by simpa using isDash)
    · have inDigits : c ∈ Nat.toDigits 10 index := by simpa using inNumber
      exact .inr (Nat.isDigit_of_mem_toDigits (by decide) (by decide) inDigits)
  · simp at present

/-- Binaries of the same tool have different marks. -/
theorem indexMark_injective
    {count left right : Nat}
    (leftWithin : left < count)
    (rightWithin : right < count)
    (same : indexMark count left = indexMark count right) :
    left = right := by
  by_cases several : 1 < count
  · simp only [indexMark, several, if_true, String.append_right_inj,
      Nat.toString_eq_repr] at same
    have digits_eq : Nat.toDigits 10 left = Nat.toDigits 10 right := by
      simpa using congrArg String.toList same
    have number_eq := congrArg (Nat.ofDigitChars 10 · 0) digits_eq
    simpa using number_eq
  · omega

/-! ## Slots -/

/-- One of the directories of a session. -/
structure Slot where
  /-- The tool that it belongs to. -/
  tool : Tool
  /-- The number of the binary among those of the tool. -/
  index : Nat
  /-- Whether it is for the cache. -/
  cached : Bool
  deriving DecidableEq, Repr

namespace Slot

/-- The name of a slot where its tool has some number of binaries. -/
def name
    (slot : Slot)
    (count : Nat) : String :=
  slot.tool.name ++
    ((if slot.cached then "-cache" else "") ++ indexMark count slot.index)

theorem head?_name
    (slot : Slot)
    (count : Nat) :
    (slot.name count).toList.head? = slot.tool.name.toList.head? := by
  obtain ⟨tool, index, cached⟩ := slot
  cases tool <;> simp [name, Tool.name]

/-- What is not in a name of a tool and no digit is not in a name of a slot. -/
theorem notMem_name
    {c : Char}
    (noLetter : c ∉ "-cache".toList ∧ ∀ tool : Tool, c ∉ tool.name.toList)
    (noDigit : c.isDigit = false)
    (slot : Slot)
    (count : Nat) : c ∉ (slot.name count).toList := by
  have noDash : c ≠ '-' := by
    rintro rfl
    exact absurd noLetter.1 (by decide)
  simp only [name, String.toList_append, List.mem_append, not_or]
  refine ⟨noLetter.2 slot.tool, ?_, ?_⟩
  · split
    · exact noLetter.1
    · simp
  · intro inMark
    rcases mem_indexMark inMark with isDash | isDigit
    · exact noDash isDash
    · simp [noDigit] at isDigit

/-- The name of a slot names an entry of a directory. -/
theorem isName_name
    (slot : Slot)
    (count : Nat) : Path.IsName (slot.name count) := by
  have noSlash : ∀ tool : Tool, '/' ∉ tool.name.toList := by
    intro tool
    cases tool <;> decide
  have noNul : ∀ tool : Tool, '\x00' ∉ tool.name.toList := by
    intro tool
    cases tool <;> decide
  refine ⟨notMem_name ⟨by decide, noSlash⟩ (by decide) slot count,
    notMem_name ⟨by decide, noNul⟩ (by decide) slot count, ?_⟩
  -- Names of tools start with letters.
  have initial := slot.head?_name count
  intro isOther
  simp only [List.mem_cons, List.not_mem_nil, or_false] at isOther
  rcases isOther with name_eq | name_eq | name_eq <;>
    cases tool_eq : slot.tool <;>
    simp [name_eq, tool_eq, Tool.name] at initial

/-- The names of the caches are not those of the directories to work in. -/
theorem mem_name_iff
    (slot : Slot)
    (count : Nat) :
    'c' ∈ ((if slot.cached then "-cache" else "") ++
      indexMark count slot.index).toList ↔ slot.cached = true := by
  have notInMark : 'c' ∉ (indexMark count slot.index).toList := by
    intro inMark
    exact absurd (mem_indexMark inMark) (by decide)
  cases slot.cached <;> simp [notInMark]

/-- Different slots have different names. -/
theorem name_injective
    {slot other : Slot}
    {count otherCount : Nat}
    (within : slot.index < count)
    (otherWithin : other.index < otherCount)
    (sameCount : slot.tool = other.tool -> count = otherCount)
    (same : slot.name count = other.name otherCount) :
    slot = other := by
  have sameTool : slot.tool = other.tool := by
    apply Tool.eq_of_initial_eq
    rw [← head?_name slot count, same, head?_name]
  obtain rfl : count = otherCount := sameCount sameTool
  obtain ⟨tool, index, cached⟩ := slot
  obtain ⟨otherTool, otherIndex, otherCached⟩ := other
  obtain rfl : tool = otherTool := sameTool
  have rest_eq := (String.append_right_inj tool.name).mp same
  have sameKind : cached = otherCached := by
    rw [Bool.eq_iff_iff, ← mem_name_iff ⟨tool, index, cached⟩ count,
      rest_eq, mem_name_iff ⟨tool, otherIndex, otherCached⟩ count]
  obtain rfl := sameKind
  have mark_eq := (String.append_right_inj _).mp rest_eq
  obtain rfl : index = otherIndex :=
    indexMark_injective within otherWithin mark_eq
  rfl

/-- Directories of different contexts have different names. -/
theorem name_ne
    {tool otherTool : Tool}
    {index otherIndex count otherCount : Nat}
    (within : index < count)
    (otherWithin : otherIndex < otherCount)
    (sameCount : otherTool = tool -> otherCount = count)
    (different : (otherTool, otherIndex) ≠ (tool, index))
    (otherCached cached : Bool) :
    name ⟨otherTool, otherIndex, otherCached⟩ otherCount ≠
      name ⟨tool, index, cached⟩ count := by
  intro same
  have slot_eq := name_injective otherWithin within sameCount same
  simp only [Slot.mk.injEq] at slot_eq
  exact different (by rw [slot_eq.1, slot_eq.2.1])

end Slot

/-! ## The contexts of a session -/

/-- The directories of a planned context are two slots. -/
theorem dirs_planContext
    (tool : Tool)
    (sessionDir : Path)
    (count index : Nat)
    (binary : Path) :
    (planContext tool sessionDir count index binary).workingDir =
        sessionDir.join (Slot.name ⟨tool, index, false⟩ count) ∧
      (planContext tool sessionDir count index binary).cacheDir =
        sessionDir.join (Slot.name ⟨tool, index, true⟩ count) := by
  simp [planContext, Slot.name, String.append_assoc]

/-- A planned context is that of a binary. -/
theorem getElem?_planContexts_eq_some_iff
    (tool : Tool)
    (sessionDir : Path)
    (binaries : List Path)
    (index : Nat)
    (context : Context) :
    (planContexts tool sessionDir binaries)[index]? = some context ↔
      ∃ binary, binaries[index]? = some binary ∧
        context = planContext tool sessionDir binaries.length index binary := by
  rw [planContexts, List.getElem?_mapIdx, Option.map_eq_some_iff]
  simp only [eq_comm]

theorem mem_planContexts_iff
    (tool : Tool)
    (sessionDir : Path)
    (binaries : List Path)
    (context : Context) :
    context ∈ planContexts tool sessionDir binaries ↔
      ∃ index binary, binaries[index]? = some binary ∧
        context = planContext tool sessionDir binaries.length index binary := by
  simp only [List.mem_iff_getElem?, getElem?_planContexts_eq_some_iff]

end Session
end LockBench
