import LockBench.Proofs.Command.ShellLine
import LockBench.Proofs.Shell.Execution

/-!
# Expressions in a working directory

An expression without variables is written behind the change of its directory
as it is.  The change is thereby a part of the first and-or list of the
expression only.  An expression that is one and-list runs in its directory, and
not at all where that cannot be entered, just as the process that is started
directly.  Every other list has commands that run where the line was started
when the directory cannot be entered.
-/

namespace LockBench

open Shell

/-- What a line may run that is handed to a shell in a directory. -/
def Shell.LineRuns
    (here : Path)
    (line : String)
    (ran : List Ran) : Prop :=
  ∃ lists, list? line = some lists ∧ RunsList here lists ran

/-- What a process may run that is a shell with an expression: nothing, where
its directory cannot be entered. -/
def Launch.RunsShell
    (launch : Launch)
    (entered : Bool)
    (ran : List Ran) : Prop :=
  ∃ text dir, launch = ⟨"sh", ["-c", text], [], some dir⟩ ∧
    if entered then LineRuns dir text ran else ran = []

/-- A list of commands that are all joined by `&&`. -/
def Shell.IsAndList (lists : List (AndOr × Separator)) : Prop :=
  ∃ list separator, lists = [(list, separator)] ∧
    ∀ entry ∈ list.more, entry.1 = .andIf

/-- A list behind a change of the directory. -/
def Shell.behind
    (change : String) :
    List (AndOr × Separator) -> List (AndOr × Separator)
  | [] => []
  | (list, separator) :: others =>
    (list.after change .andIf, separator) :: others

/-- The first and-or list runs in the background, in front of others. -/
def Shell.StartsBehind (lists : List (AndOr × Separator)) : Prop :=
  ∃ list others, lists = (list, .background) :: others ∧ others ≠ []

namespace Command

/-- The change of the directory as it is written. -/
def change (dir : Path) : String :=
  "cd " ++ quote dir.text

/-- A line ran as a process does, which enters its directory or does not. -/
def RanAs
    (launch : Launch)
    (dir here : Path)
    (ran : List Ran) : Prop :=
  ∃ entered rest, ran = changing (change dir) here dir entered :: rest ∧
    launch.RunsShell entered rest

theorem andList?_change
    {dir : Path}
    (nulFree : NulFree dir.text) :
    andList? (change dir) = some [⟨[], ["cd", dir.text]⟩] := by
  have read := (readsList_changeDirectory nulFree).andList?_eq
  rwa [String.ofList_toList] at read

/-- The line of an expression in a directory. -/
theorem shellLine_expression
    {command : Command}
    {text : String}
    {dir : Path}
    (isExpression : command.invocation = .expression text)
    (noVariables : command.environment = [])
    (dir_eq : command.workingDir = some dir) :
    command.shellLine = change dir ++ " && " ++ text := by
  simp [shellLine, directoryPart, invocationPart, isExpression, noVariables,
    dir_eq, change]

section Reading

variable {text : String} {dir here : Path} {list : AndOr}
  {separator : Separator} {others : List (AndOr × Separator)}
  {ran rest : List Ran}

/-- The change is read as a part of the first and-or list. -/
theorem lineRuns_change_iff
    (isList : list? text = some ((list, separator) :: others)) :
    LineRuns here (change dir ++ " && " ++ text) ran ↔
      RunsList here ((list.after (change dir) .andIf, separator) :: others)
        ran := by
  rw [LineRuns, change, list?_change isList]
  simp

theorem lineRuns_iff
    (isList : list? text = some ((list, separator) :: others)) :
    LineRuns here text ran ↔
      RunsList here ((list, separator) :: others) ran := by
  rw [LineRuns, isList]
  simp

theorem runsShell_iff
    (entered : Bool) :
    Launch.RunsShell ⟨"sh", ["-c", text], [], some dir⟩ entered ran ↔
      if entered then LineRuns dir text ran else ran = [] := by
  constructor
  · rintro ⟨_, _, ⟨⟩, runs⟩
    exact runs
  · intro runs
    exact ⟨text, dir, rfl, runs⟩

/-- A line that runs as a process either enters the directory or runs nothing
else. -/
theorem ranAs_iff :
    RanAs ⟨"sh", ["-c", text], [], some dir⟩ dir here ran ↔
      (∃ rest, ran = changing (change dir) here dir true :: rest ∧
        LineRuns dir text rest) ∨
      ran = [changing (change dir) here dir false] := by
  simp [RanAs, runsShell_iff, or_comm]

end Reading

section Running

variable {dir here : Path} {list : AndOr} {separator : Separator}
  {others : List (AndOr × Separator)} {ran rest : List Ran}

/-- An and-list behind a change runs in the directory, or not at all. -/
theorem runsList_after_andList_iff
    (absolute : dir.isAbsolute = true)
    (nulFree : NulFree dir.text)
    (onlyAnd : ∀ entry ∈ list.more, entry.1 = .andIf) :
    RunsList here [(list.after (change dir) .andIf, separator)] ran ↔
      (∃ rest, ran = changing (change dir) here dir true :: rest ∧
        RunsList dir [(list, separator)] rest) ∨
      ran = [changing (change dir) here dir false] := by
  simp only [runsList_singleton_iff,
    after_runs_iff absolute (andList?_change nulFree),
    runsLinks_false_iff onlyAnd]
  constructor
  · rintro ⟨ending, ⟨rest, rfl, runs⟩ | ⟨_, rfl, rfl, rfl⟩⟩
    · exact .inl ⟨rest, rfl, ending, runs⟩
    · exact .inr rfl
  · rintro (⟨rest, rfl, ending, runs⟩ | rfl)
    · exact ⟨ending, .inl ⟨rest, rfl, runs⟩⟩
    · exact ⟨_, .inr ⟨[], rfl, rfl, rfl⟩⟩

/-- Where the directory is entered, a list runs in it, unless it is behind
commands in the background. -/
theorem runsList_after_entered_iff
    (absolute : dir.isAbsolute = true)
    (nulFree : NulFree dir.text)
    (inFront : ¬StartsBehind ((list, separator) :: others)) :
    RunsList here ((list.after (change dir) .andIf, separator) :: others)
        (changing (change dir) here dir true :: rest) ↔
      RunsList dir ((list, separator) :: others) rest := by
  have runs_iff : ∀ {ran ending},
      (list.after (change dir) .andIf).Runs here
          (changing (change dir) here dir true :: ran) ending ↔
        list.Runs dir ran ending := by
    intro ran ending
    rw [after_runs_iff absolute (andList?_change nulFree)]
    simp [changing]
  cases separator with
  | background =>
      obtain rfl : others = [] := by
        by_contra someOther
        exact inFront ⟨list, others, rfl, someOther⟩
      simp only [runsList_singleton_iff, runs_iff]
  | sequence =>
      rw [runsList_sequence_iff, runsList_sequence_iff, runs_iff]
      refine or_congr_left ?_
      constructor
      · rintro ⟨early, late, succeeded, next, ran_eq, first, later⟩
        rcases (after_runs_iff absolute (andList?_change nulFree)).mp first
          with ⟨ran, rfl, _⟩ | ⟨ran, rfl, _⟩
        · rw [runs_iff] at first
          cases ran_eq
          exact ⟨ran, late, succeeded, next, rfl, first, later⟩
        · simp [changing] at ran_eq
      · rintro ⟨early, late, succeeded, next, rfl, first, later⟩
        exact ⟨_, late, succeeded, next, rfl, runs_iff.mpr first, later⟩

/-- Any list but an and-list has a command that runs where the line started, if
the directory cannot be entered. -/
theorem exists_runsList_after_refused
    (notAndList : ¬IsAndList ((list, separator) :: others))
    (nulFree : NulFree dir.text)
    (absolute : dir.isAbsolute = true)
    (here : Path) :
    ∃ rest, rest ≠ [] ∧ (∀ event ∈ rest, event.dir = here) ∧
      RunsList here ((list.after (change dir) .andIf, separator) :: others)
        (changing (change dir) here dir false :: rest) := by
  obtain ⟨late, runsLate, lateHere, someLate⟩ := exists_runsList here others
  have runs : ∀ {early after},
      RunsLinks false here list.more early (.stays after here) ->
        RunsList here ((list.after (change dir) .andIf, separator) :: others)
          (changing (change dir) here dir false :: early ++ late) :=
    fun runsEarly => .cons
      ((after_runs_iff absolute (andList?_change nulFree)).mpr
        (.inr ⟨_, rfl, runsEarly⟩)) runsLate separator
  by_cases alternative : ∃ command, (.orIf, command) ∈ list.more
  · obtain ⟨early, after, runsEarly, earlyHere, someEarly⟩ :=
      exists_runsLinks_of_orIf here alternative
    exact ⟨early ++ late, by simp [someEarly],
      List.forall_mem_append.mpr ⟨earlyHere, lateHere⟩, runs runsEarly⟩
  · obtain ⟨early, after, runsEarly, earlyHere⟩ :=
      exists_runsLinks false here list.more
    have someOther : others ≠ [] := by
      rintro rfl
      refine notAndList ⟨list, separator, rfl, ?_⟩
      rintro ⟨link, command⟩ member
      cases link with
      | andIf => rfl
      | orIf => exact absurd ⟨command, member⟩ alternative
    exact ⟨early ++ late, by simp [someLate someOther],
      List.forall_mem_append.mpr ⟨earlyHere, lateHere⟩, runs runsEarly⟩

/-- What follows commands in the background does not wait for them to change
the directory. -/
theorem exists_runsList_behind
    (someOther : others ≠ [])
    (nulFree : NulFree dir.text)
    (absolute : dir.isAbsolute = true)
    (here : Path) :
    ∃ rest, (∃ event ∈ rest, event.dir = here) ∧
      RunsList here ((list.after (change dir) .andIf, .background) :: others)
        (changing (change dir) here dir true :: rest) := by
  obtain ⟨early, after, runsEarly, -⟩ :=
    exists_runsLinks true dir ((.andIf, list.first) :: list.more)
  obtain ⟨late, runsLate, lateHere, someLate⟩ := exists_runsList here others
  obtain ⟨event, isLate⟩ := List.exists_mem_of_ne_nil _ (someLate someOther)
  have runsFirst : (list.after (change dir) .andIf).Runs here
      (changing (change dir) here dir true :: early) (.stays after dir) :=
    (after_runs_iff absolute (andList?_change nulFree)).mpr
      (.inl ⟨early, rfl, runsEarly⟩)
  exact ⟨early ++ late,
    ⟨event, List.mem_append_right _ isLate, lateHere event isLate⟩,
    .background runsFirst runsLate (interleaved_append _ _)⟩

end Running

/-- How far the line of an expression is confined to a directory, compared with
the process that is started there. -/
structure Confinement
    (line : String)
    (launch : Launch)
    (dir : Path)
    (lists : List (AndOr × Separator)) : Prop where
  /-- The change of the directory becomes a part of the first and-or list. -/
  reads : list? line = some (behind (change dir) lists)
  /-- An and-list runs in the directory, or not at all. -/
  andList : IsAndList lists -> ∀ here ran,
    LineRuns here line ran ↔ RanAs launch dir here ran
  /-- Any other list may have commands that run where the line was started,
  although the directory could not be entered. -/
  escapes : ¬IsAndList lists -> ∀ here, ∃ rest, rest ≠ [] ∧
    (∀ event ∈ rest, event.dir = here) ∧
    LineRuns here line (changing (change dir) here dir false :: rest)
  /-- Where the directory is entered, every list runs as the process does,
  unless its first commands run in the background. -/
  entered : ¬StartsBehind lists -> ∀ here rest,
    LineRuns here line (changing (change dir) here dir true :: rest) ↔
      launch.RunsShell true rest
  /-- What follows commands in the background may run where the line was
  started, although the directory was entered. -/
  leaves : StartsBehind lists -> ∀ here, ∃ rest,
    (∃ event ∈ rest, event.dir = here) ∧
      LineRuns here line (changing (change dir) here dir true :: rest)
  /-- The process runs in the directory, as long as its commands stay there. -/
  inside : ∀ isEntered ran, launch.RunsShell isEntered ran ->
    (∀ event ∈ ran, event.Remains) -> ∀ event ∈ ran, event.dir = dir
  /-- The process runs nothing where the directory is not entered. -/
  refused : ∀ ran, launch.RunsShell false ran -> ran = []

/-- The line of an expression without variables runs as its process where the
expression is an and-list.  Where it is any other list, commands of it run
outside the directory when that cannot be entered. -/
theorem expression_confined_iff_andList
    {command : Command}
    {text : String}
    {dir : Path}
    {lists : List (AndOr × Separator)}
    (isExpression : command.invocation = .expression text)
    (noVariables : command.environment = [])
    (dir_eq : command.workingDir = some dir)
    (absolute : dir.isAbsolute = true)
    (nulFree : NulFree dir.text)
    (isList : list? text = some lists) :
    ∃ launch, command.launch? = some launch ∧
      Confinement command.shellLine launch dir lists := by
  have line_eq := shellLine_expression isExpression noVariables dir_eq
  refine ⟨⟨"sh", ["-c", text], [], some dir⟩, ?_, ?_⟩
  · simp [launch?, isExpression, noVariables, dir_eq]
  rw [line_eq]
  obtain ⟨list, separator, others, rfl⟩ := exists_eq_cons_of_list? isList
  exact
    { reads := list?_change isList
      andList := by
        rintro ⟨list, separator, ⟨⟩, onlyAnd⟩ here ran
        rw [lineRuns_change_iff isList, ranAs_iff,
          runsList_after_andList_iff absolute nulFree onlyAnd]
        simp only [lineRuns_iff isList]
      escapes := by
        intro notAndList here
        simp only [lineRuns_change_iff isList]
        exact exists_runsList_after_refused notAndList nulFree absolute here
      entered := by
        intro inFront here rest
        rw [lineRuns_change_iff isList, runsShell_iff, if_pos rfl,
          runsList_after_entered_iff absolute nulFree inFront,
          lineRuns_iff isList]
      leaves := by
        rintro ⟨_, _, ⟨⟩, someOther⟩ here
        simp only [lineRuns_change_iff isList]
        exact exists_runsList_behind someOther nulFree absolute here
      inside := by
        intro isEntered ran runs remain
        rw [runsShell_iff] at runs
        cases isEntered with
        | false =>
            obtain rfl : ran = [] := runs
            simp
        | true => exact ((lineRuns_iff isList).mp runs).dir_eq remain
      refused := by
        intro ran runs
        rwa [runsShell_iff] at runs }

/-- A command whose expression has an alternative. -/
def fallback : Command where
  name := "fallback"
  workingDir := some ⟨"/d"⟩
  invocation := .expression "a || b"

theorem expression_confined_iff_andList_fallback :
    (fallback.environment = [] ∧ fallback.workingDir = some ⟨"/d"⟩ ∧
      (Path.mk "/d").isAbsolute = true ∧ NulFree "/d" ∧
      list? "a || b" = some [(⟨"a", [(.orIf, "b")]⟩, .sequence)]) ∧
    ∃ launch, fallback.launch? = some launch ∧
      Confinement fallback.shellLine launch ⟨"/d"⟩
        [(⟨"a", [(.orIf, "b")]⟩, .sequence)] := by
  have absolute : (Path.mk "/d").isAbsolute = true := by decide
  have nulFree : NulFree "/d" := by decide
  have isList : list? "a || b" =
      some [(⟨"a", [(.orIf, "b")]⟩, .sequence)] := by decide
  exact ⟨⟨rfl, rfl, absolute, nulFree, isList⟩,
    expression_confined_iff_andList rfl rfl rfl absolute nulFree isList⟩

/-- Where the directory cannot be entered, the alternative runs outside of it,
which it does not in the process. -/
theorem fallback_runs_outside :
    ∃ launch, fallback.launch? = some launch ∧
      LineRuns ⟨"/"⟩ fallback.shellLine
        [⟨"cd /d", ⟨"/"⟩, .stays false ⟨"/"⟩⟩,
          ⟨"b", ⟨"/"⟩, .stays true ⟨"/"⟩⟩] ∧
      ∀ ran, launch.RunsShell false ran -> ran = [] := by
  refine ⟨⟨"sh", ["-c", "a || b"], [], some ⟨"/d"⟩⟩, rfl, ?_, ?_⟩
  · have isList : list? fallback.shellLine =
        some [(⟨"cd /d", [(.andIf, "a"), (.orIf, "b")]⟩, .sequence)] := by
      decide
    have isPossible : Ran.Possible ⟨"b", ⟨"/"⟩, .stays true ⟨"/"⟩⟩ := by
      intro target _ isChange
      have isOther : andList? "b" = some [⟨[], ["b"]⟩] := by decide
      simp [isOther] at isChange
    refine ⟨_, isList, runsList_singleton_iff.mpr
      ⟨.stays true ⟨"/"⟩, ?_⟩⟩
    exact .run rfl (Ran.possible_failing _ _)
      (.skip "a" rfl (.run rfl isPossible (.nil true ⟨"/"⟩)))
  · intro ran runs
    rwa [runsShell_iff] at runs

end Command
end LockBench
