import LockBench.Proofs.Session.Groups
import LockBench.Proofs.Session.Separation
import LockBench.Report
import LockBench.Task.Run

/-!
# The names of commands

The commands of a group are told apart by their names, although a label may be
any file name: the number at its end tells the binaries of a tool apart, and
the word at its start tells the tools apart.  A report takes that word for the
tool again.
-/

namespace LockBench

/-! ## First words -/

namespace Text

theorem dropBlank_eq_self
    {c : Char}
    {rest : List Char}
    (notBlank : isBlank c = false) : dropBlank (c :: rest) = c :: rest := by
  rw [dropBlank, List.dropWhile_cons_of_neg (by simp [notBlank])]

/-- A word in front of a space is the first word, whatever follows. -/
theorem firstWord_append
    {word : String}
    (someLetter : word.toList ≠ [])
    (noBlank : ∀ c ∈ word.toList, isBlank c = false)
    (rest : String) :
    firstWord (word ++ " " ++ rest) = word := by
  obtain ⟨c, others, word_eq⟩ := List.exists_cons_of_ne_nil someLetter
  have text_eq : (word ++ " " ++ rest).toList =
      word.toList ++ ' ' :: rest.toList := by simp
  have starts : dropBlank (word.toList ++ ' ' :: rest.toList) =
      word.toList ++ ' ' :: rest.toList := by
    rw [word_eq, List.cons_append]
    exact dropBlank_eq_self (noBlank c (by simp [word_eq]))
  have allLetters : ∀ letter ∈ word.toList, (!isBlank letter) = true := by
    intro letter present
    simp [noBlank letter present]
  have isSpace : isBlank ' ' = true := by decide
  rw [firstWord, text_eq, starts, List.takeWhile_append_of_pos allLetters,
    List.takeWhile_cons_of_neg (by simp [isSpace]), List.append_nil,
    String.ofList_toList]

end Text

/-- A tool is found again under its name. -/
theorem Tool.ofName?_name (tool : Tool) : ofName? tool.name = some tool := by
  cases tool <;> decide

/-- The name of a tool is one word. -/
theorem Tool.name_isWord (tool : Tool) :
    tool.name.toList ≠ [] ∧ ∀ c ∈ tool.name.toList, Text.isBlank c = false := by
  cases tool <;> simp [name, Text.isBlank]

/-- A command belongs to the family of its tool, whatever its label. -/
theorem Report.Family.of_commandName
    (suite : Suite)
    (operation : Operation) :
    Report.Family.of (suite.commandName operation) = .tool suite.tool := by
  obtain ⟨someLetter, noBlank⟩ := suite.tool.name_isWord
  have name_eq : suite.commandName operation =
      suite.tool.name ++ " " ++
        (operation.name ++ " (" ++ suite.label ++ ")") := by
    simp [Suite.commandName, String.append_assoc]
  rw [Report.Family.of, name_eq, Text.firstWord_append someLetter noBlank,
    Tool.ofName?_name]

namespace Session

/-! ## Labels -/

/-- What follows the last dash of a mark is the number of the binary. -/
theorem takeWhile_reverse_mark
    (front : String)
    (index : Nat) :
    (front ++ ("-" ++ toString index)).toList.reverse.takeWhile (· ≠ '-') =
      (toString index).toList.reverse := by
  have noDash : ∀ c ∈ (toString index).toList.reverse,
      decide (c ≠ '-') = true := by
    intro c present
    have inDigits : c ∈ Nat.toDigits 10 index := by simpa using present
    have isDigit :=
      Nat.isDigit_of_mem_toDigits (by decide) (by decide) inDigits
    rw [decide_eq_true_eq]
    rintro rfl
    exact absurd isDigit (by decide)
  have text_eq : (front ++ ("-" ++ toString index)).toList.reverse =
      (toString index).toList.reverse ++ '-' :: front.toList.reverse := by
    simp
  rw [text_eq, List.takeWhile_append_of_pos noDash,
    List.takeWhile_cons_of_neg (by decide), List.append_nil]

/-- The mark at the end of a label tells the binary, whatever the file names in
front of it are. -/
theorem index_eq_of_append_mark_eq
    {front other : String}
    {count left right : Nat}
    (leftWithin : left < count)
    (rightWithin : right < count)
    (same : front ++ indexMark count left = other ++ indexMark count right) :
    left = right := by
  by_cases several : 1 < count
  · simp only [indexMark, if_pos several] at same
    have ends_eq := congrArg
      (fun text => text.toList.reverse.takeWhile (· ≠ '-')) same
    simp only [takeWhile_reverse_mark, List.reverse_inj, String.toList_inj]
      at ends_eq
    apply indexMark_injective leftWithin rightWithin
    simp only [indexMark, if_pos several, ends_eq]
  · omega

section Planned

variable (project : ProjectOptions) (sessionDir : Path) (operation : Operation)

/-- The names that the suites of one tool give to an operation are
different. -/
theorem nodup_commandNames_of_tool
    (tool : Tool)
    (binaries : List Path) :
    ((planContexts tool sessionDir binaries).map fun context =>
      Suite.commandName { tool, context, project } operation).Nodup := by
  have different : binaries.zipIdx.Nodup := by
    apply List.Nodup.of_map Prod.snd
    rw [List.zipIdx_map_snd]
    exact List.nodup_range'
  rw [planContexts_eq, List.map_map]
  refine different.map_on ?_
  rintro ⟨binary, index⟩ member ⟨other, otherIndex⟩ otherMember same
  rw [List.mem_zipIdx_iff_getElem?] at member otherMember
  dsimp only at member otherMember
  obtain ⟨within, -⟩ := List.getElem?_eq_some_iff.mp member
  obtain ⟨otherWithin, -⟩ := List.getElem?_eq_some_iff.mp otherMember
  simp only [Function.comp_apply, Suite.commandName, Suite.label, planContext,
    String.append_left_inj, String.append_right_inj] at same
  obtain rfl := index_eq_of_append_mark_eq within otherWithin same
  rw [member, Option.some.injEq] at otherMember
  rw [otherMember]

/-- The names that the suites of a session give to an operation are
different. -/
theorem nodup_commandNames
    {tools : List (Tool × List Path)}
    (different : (tools.map Prod.fst).Nodup) :
    ((RunTask.planSuites project sessionDir tools).map
      (·.commandName operation)).Nodup := by
  rw [RunTask.planSuites, List.map_flatMap, List.nodup_flatMap]
  constructor
  · intro entry _
    rw [List.map_map]
    exact nodup_commandNames_of_tool project sessionDir operation entry.1
      entry.2
  · apply (List.pairwise_map.mp different).imp
    intro entry other differ name inEntry inOther
    simp only [List.map_map, List.mem_map, Function.comp_apply]
      at inEntry inOther
    obtain ⟨context, -, rfl⟩ := inEntry
    obtain ⟨otherContext, -, same⟩ := inOther
    -- The families of equal names are equal, and they are those of the tools.
    have family_eq := congrArg Report.Family.of same
    simp only [Report.Family.of_commandName, Report.Family.tool.injEq]
      at family_eq
    exact differ family_eq.symm

end Planned

/-! ## Groups -/

/-- The names in a group are those of the suites that support its operation. -/
theorem map_name_filterMap_command?
    (suites : List Suite)
    (operation : Operation) :
    (suites.filterMap (·.command? operation)).map Command.name =
      (suites.filter fun suite => operation ∈ suite.operations).map
        (·.commandName operation) := by
  induction suites with
  | nil => rfl
  | cons suite rest inductionHypothesis =>
      by_cases supported : operation ∈ suite.operations
      · have made : ∃ command, suite.command? operation = some command ∧
            command.name = suite.commandName operation :=
          ⟨_, if_pos supported, rfl⟩
        obtain ⟨command, command_eq, name_eq⟩ := made
        simp [command_eq, name_eq, supported, inductionHypothesis]
      · have none_eq : suite.command? operation = none := if_neg supported
        simp [none_eq, supported, inductionHypothesis]

/-- In every group of a session the names of the commands are different, and a
report takes each command for one of the tool whose suite made it, whatever the
label is. -/
theorem names_tell_suites
    {tools : List (Tool × List Path)}
    (different : (tools.map Prod.fst).Nodup)
    (project : ProjectOptions)
    (sessionDir : Path)
    (operation : Operation)
    {group : Group}
    (collected : Group.collect? (RunTask.planSuites project sessionDir tools)
      operation = some group) :
    (group.commands.map Command.name).Nodup ∧
      group.commands.map (fun command => Report.Family.of command.name) =
        ((RunTask.planSuites project sessionDir tools).filter fun suite =>
          operation ∈ suite.operations).map (fun suite => .tool suite.tool) ∧
      ∀ suite command, Suite.command? suite operation = some command ->
        Report.Family.of command.name = .tool suite.tool := by
  obtain ⟨rfl, -⟩ := (Group.collect?_eq_some_iff _ _ _).mp collected
  refine ⟨?_, ?_, ?_⟩
  · rw [map_name_filterMap_command?]
    exact (nodup_commandNames project sessionDir operation different).sublist
      (List.filter_sublist.map _)
  · have families := congrArg (List.map Report.Family.of)
      (map_name_filterMap_command? (RunTask.planSuites project sessionDir tools)
        operation)
    simpa only [List.map_map, Function.comp_def, Report.Family.of_commandName]
      using families
  · intro suite command supported
    rw [Suite.command?] at supported
    split at supported
    · cases supported
      exact Report.Family.of_commandName suite operation
    · cases supported

/-- File names that end as marks do, and one that reads like a command of
another tool. -/
theorem names_tell_suites_awkward :
    let tools : List (Tool × List Path) :=
      [(.ripenv, [⟨"/a/uv-1"⟩, ⟨"/b/uv"⟩]),
        (.uv, [⟨"/c/ripenv lock-cold (uv"⟩])]
    (tools.map Prod.fst).Nodup ∧
      ∃ group, Group.collect? (RunTask.planSuites {} ⟨"/s"⟩ tools) .lockCold =
          some group ∧
        group.commands.map Command.name =
          ["ripenv lock-cold (uv-1-0)", "ripenv lock-cold (uv-1)",
            "uv lock-cold (ripenv lock-cold (uv)"] ∧
        (group.commands.map Command.name).Nodup ∧
        group.commands.map (fun command => Report.Family.of command.name) =
          [.tool .ripenv, .tool .ripenv, .tool .uv] := by
  intro tools
  have different : (tools.map Prod.fst).Nodup := by decide
  obtain ⟨nodup, families, -⟩ :=
    names_tell_suites different {} ⟨"/s"⟩ .lockCold rfl
  exact ⟨different, _, rfl, by decide, nodup, families⟩

end Session
end LockBench
