import LockBench.Command
import LockBench.Proofs.Shell.Lines

/-!
# A command's line and its process

A command can be handed to a shell as a line or started directly.  The line
reads as a change of the directory, if there is one, and one simple command,
whose assignments and words are those of the command letter for letter.  What
the shell starts for it is the process that is started directly; where the
command is an expression with variables, it is so once `env` has set them.
-/

namespace LockBench

namespace Launch

/-- Whether `env` takes an argument for a setting. -/
def isSetting (argument : String) : Bool :=
  argument.toList.contains '='

/-- The variable and the value of a setting. -/
def splitSetting (argument : String) : String × String :=
  (String.ofList (argument.toList.takeWhile (· ≠ '=')),
    String.ofList ((argument.toList.dropWhile (· ≠ '=')).drop 1))

/-- The process that the program `env` becomes: the settings in front of its
arguments are set, and what follows them is run.  It stays as it is where it
is told anything else. -/
def throughEnv (launch : Launch) : Launch :=
  match launch.program, launch.arguments.dropWhile isSetting with
  | "env", program :: arguments =>
    if program.toList.head? = some '-' then launch
    else
      ⟨program, arguments, launch.environment ++
        (launch.arguments.takeWhile isSetting).map splitSetting,
        launch.workingDir⟩
  | _, _ => launch

end Launch

namespace Command

/-- A command that can be written as a line: its variables have names of the
shell, no text of it holds NUL, and it runs something that needs to be
written down, which an expression without variables does not. -/
structure Writable (command : Command) : Prop where
  /-- The variables have names of the shell. -/
  names : ∀ setting ∈ command.environment,
    Shell.isName setting.1.toList = true
  /-- Their values hold no NUL. -/
  values : ∀ setting ∈ command.environment, Shell.NulFree setting.2
  /-- The directory holds no NUL. -/
  dir : ∀ dir ∈ command.workingDir, Shell.NulFree dir.text
  /-- There is something to run, and it holds no NUL. -/
  runs : match command.invocation with
    | .words list => list ≠ [] ∧ ∀ word ∈ list, Shell.NulFree word
    | .expression text => command.environment ≠ [] ∧ Shell.NulFree text

/-- The change of the directory as a simple command, if there is one. -/
def directoryChange (command : Command) : List Shell.SimpleCommand :=
  command.workingDir.toList.map fun dir => ⟨[], ["cd", dir.text]⟩

/-- What the command runs as a simple command. -/
def simple (command : Command) : Shell.SimpleCommand :=
  match command.invocation with
  | .words list => ⟨command.environment, list⟩
  | .expression text =>
    ⟨[], "env" :: command.environment.map (fun setting =>
      setting.1 ++ "=" ++ setting.2) ++ ["sh", "-c", text]⟩

/-- The part of the line that changes the directory reads as that change. -/
theorem readsList_changeDirectory
    {dir : Path}
    (nulFree : Shell.NulFree dir.text) :
    Shell.ReadsList ("cd " ++ Shell.quote dir.text).toList
      [⟨[], ["cd", dir.text]⟩] := by
  have bareWord : Shell.IsBareWord "cd" := by decide
  have readable : ∀ piece ∈ [Shell.Piece.bare "cd", .quoted dir.text],
      piece.Readable := by
    simp only [List.forall_mem_cons, List.not_mem_nil, false_implies,
      implies_true, and_true]
    exact ⟨Shell.reads_bareWord bareWord, Shell.reads_quote nulFree⟩
  have reads := Shell.readsList_words
    (Shell.assignment?_bareLetters bareWord) readable
  simpa [Shell.Piece.bare, Shell.Piece.quoted] using reads

theorem assignment_eq :
    assignment = fun setting => setting.1 ++ "=" ++ Shell.quote setting.2 := rfl

/-- Variables, if there are any, and words read as one command. -/
theorem readsList_invocation_words
    {command : Command}
    (writable : command.Writable)
    {list : List String}
    (isWords : command.invocation = .words list) :
    Shell.ReadsList command.invocationPart.toList [command.simple] := by
  have runs := writable.runs
  simp only [isWords] at runs
  have reads := Shell.readsList_settings runs.1 writable.names writable.values
    runs.2
  simpa [invocationPart, simple, isWords, assignment_eq] using reads

/-- An expression with variables is a word of `env`, and so are the
variables. -/
theorem readsList_invocation_expression
    {command : Command}
    (writable : command.Writable)
    {text : String}
    (isExpression : command.invocation = .expression text) :
    Shell.ReadsList command.invocationPart.toList [command.simple] := by
  have runs := writable.runs
  simp only [isExpression] at runs
  obtain ⟨someVariable, nulFree⟩ := runs
  let rest : List Shell.Piece :=
    command.environment.map .setting ++ [.bare "sh", .bare "-c", .quoted text]
  have bareEnv : Shell.IsBareWord "env" := by decide
  have readable : ∀ piece ∈ .bare "env" :: rest, Shell.Piece.Readable piece := by
    intro piece member
    simp only [rest, List.mem_cons, List.mem_append, List.mem_map,
      List.not_mem_nil, or_false] at member
    rcases member with rfl | ⟨setting, present, rfl⟩ | rfl | rfl | rfl
    · exact Shell.reads_bareWord bareEnv
    · exact Shell.reads_setting (writable.names setting present)
        (writable.values setting present)
    · exact Shell.reads_bareWord (by decide)
    · exact Shell.reads_bareWord (by decide)
    · exact Shell.reads_quote nulFree
  have reads := Shell.readsList_words
    (Shell.assignment?_bareLetters bareEnv) readable
  have line_eq : command.invocationPart =
      " ".intercalate ((.bare "env" :: rest).map Shell.Piece.text) := by
    have part_eq : command.invocationPart =
        "env " ++ " ".intercalate (command.environment.map assignment) ++
          " sh -c " ++ Shell.quote text := by
      obtain ⟨setting, others, environment_eq⟩ :=
        List.exists_cons_of_ne_nil someVariable
      simp [invocationPart, isExpression, environment_eq]
    have texts_eq : rest.map Shell.Piece.text =
        command.environment.map assignment ++
          ["sh", "-c", Shell.quote text] := by
      simp [rest, Shell.Piece.bare, Shell.Piece.quoted, Shell.Piece.setting,
        assignment_eq, Function.comp_def]
    rw [part_eq, List.map_cons, texts_eq,
      String.intercalate_cons_of_ne_nil (by simp),
      String.intercalate_append_of_ne_nil (by simpa using someVariable)
        (by simp)]
    simp [Shell.Piece.bare, String.append_assoc, ← String.toList_inj]
  have simple_eq : command.simple =
      ⟨[], (.bare "env" :: rest).map fun piece =>
        Shell.spell piece.letters⟩ := by
    simp [simple, isExpression, rest, Shell.Piece.bare, Shell.Piece.setting,
      Shell.Piece.quoted, Function.comp_def]
  rw [line_eq, simple_eq]
  exact reads

/-- The line of a command reads as the change of its directory and the one
simple command that it is. -/
theorem readsList_shellLine
    {command : Command}
    (writable : command.Writable) :
    Shell.ReadsList command.shellLine.toList
      (command.directoryChange ++ [command.simple]) := by
  have readsInvocation :
      Shell.ReadsList command.invocationPart.toList [command.simple] := by
    cases invocation_eq : command.invocation with
    | words list => exact readsList_invocation_words writable invocation_eq
    | expression text =>
        exact readsList_invocation_expression writable invocation_eq
  cases dir_eq : command.workingDir with
  | none =>
      simpa [shellLine, directoryPart, directoryChange, dir_eq]
        using readsInvocation
  | some dir =>
      have reads := (readsList_changeDirectory
        (writable.dir dir (by simp [dir_eq]))).andIf readsInvocation
      simpa [shellLine, directoryPart, directoryChange, dir_eq] using reads

/-! ## The process of the line -/

/-- A setting is split at the sign that follows its name. -/
theorem splitSetting_setting
    {setting : String × String}
    (isVariable : Shell.isName setting.1.toList = true) :
    Launch.splitSetting (setting.1 ++ "=" ++ setting.2) = setting := by
  have noSign : ∀ c ∈ setting.1.toList, decide (c ≠ '=') = true := by
    intro c present
    rw [decide_eq_true_eq]
    rintro rfl
    exact absurd (Shell.isBare_of_isName isVariable '=' present) (by decide)
  have text_eq : (setting.1 ++ "=" ++ setting.2).toList =
      setting.1.toList ++ '=' :: setting.2.toList := by simp
  rw [Launch.splitSetting, text_eq, List.takeWhile_append_of_pos noSign,
    List.dropWhile_append_of_pos noSign]
  simp

/-- The program `env` sets what it is given and runs the shell. -/
theorem throughEnv_settings
    {settings : List (String × String)}
    (areVariables : ∀ setting ∈ settings,
      Shell.isName setting.1.toList = true)
    (text : String)
    (dir : Option Path) :
    Launch.throughEnv
        ⟨"env", settings.map (fun setting =>
          setting.1 ++ "=" ++ setting.2) ++ ["sh", "-c", text], [], dir⟩ =
      ⟨"sh", ["-c", text], settings, dir⟩ := by
  have areSettings : ∀ argument ∈ settings.map (fun setting =>
      setting.1 ++ "=" ++ setting.2), Launch.isSetting argument = true := by
    intro argument member
    obtain ⟨setting, _, rfl⟩ := List.mem_map.mp member
    simp [Launch.isSetting]
  have notSetting : Launch.isSetting "sh" = false := by decide
  have split_eq : (settings.map fun setting =>
      setting.1 ++ "=" ++ setting.2).map Launch.splitSetting = settings := by
    have kept := List.map_congr_left fun setting present =>
      (splitSetting_setting (areVariables setting present)).trans
        (id_eq setting).symm
    rw [List.map_map]
    exact kept.trans (List.map_id settings)
  rw [Launch.throughEnv, List.dropWhile_append_of_pos areSettings,
    List.takeWhile_append_of_pos areSettings]
  simp [notSetting, split_eq]

/-- What the line starts is the process that is started directly, once `env`
has set the variables of an expression. -/
theorem listLaunches?_simple
    {command : Command}
    (writable : command.Writable) :
    ∃ direct started, command.launch? = some direct ∧
      Shell.listLaunches? (command.directoryChange ++ [command.simple]) =
        some [started] ∧
      match command.invocation with
      | .words _ => started = direct
      | .expression _ => started.throughEnv = direct := by
  have startsOne : ∀ started,
      command.simple.launch? command.workingDir = some started ->
      Shell.listLaunches? (command.directoryChange ++ [command.simple]) =
        some [started] := by
    intro started starts
    cases dir_eq : command.workingDir with
    | none =>
        rw [dir_eq] at starts
        simp [directoryChange, dir_eq, Shell.listLaunches?, starts]
    | some dir =>
        rw [dir_eq] at starts
        simp [directoryChange, dir_eq, Shell.listLaunches?, starts]
  have runs := writable.runs
  cases invocation_eq : command.invocation with
  | words list =>
      simp only [invocation_eq] at runs
      obtain ⟨program, arguments, rfl⟩ := List.exists_cons_of_ne_nil runs.1
      refine ⟨⟨program, arguments, command.environment, command.workingDir⟩,
        ⟨program, arguments, command.environment, command.workingDir⟩,
        ?_, startsOne _ ?_, rfl⟩
      · simp [launch?, invocation_eq]
      · simp [simple, invocation_eq, Shell.SimpleCommand.launch?]
  | expression text =>
      refine ⟨⟨"sh", ["-c", text], command.environment, command.workingDir⟩,
        ⟨"env", command.environment.map (fun setting =>
          setting.1 ++ "=" ++ setting.2) ++ ["sh", "-c", text], [],
          command.workingDir⟩,
        ?_, startsOne _ ?_, ?_⟩
      · simp [launch?, invocation_eq]
      · simp [simple, invocation_eq, Shell.SimpleCommand.launch?]
      · exact throughEnv_settings writable.names text command.workingDir

/-- The line of a command and its process are the same command: the line reads
as a change of the directory, if there is one, and exactly one simple command
with the words and assignments of the command, and the process that it starts
is the one that is started directly. -/
theorem shellLine_reads_as_launch
    (command : Command)
    (writable : command.Writable) :
    Shell.andList? command.shellLine =
        some (command.directoryChange ++ [command.simple]) ∧
      ∃ direct started, command.launch? = some direct ∧
        Shell.launches? command.shellLine = some [started] ∧
        match command.invocation with
        | .words _ => started = direct
        | .expression _ => started.throughEnv = direct := by
  have read : Shell.andList? command.shellLine =
      some (command.directoryChange ++ [command.simple]) := by
    simpa using (readsList_shellLine writable).andList?_eq
  refine ⟨read, ?_⟩
  rw [Shell.launches?, read, Option.bind_some]
  exact listLaunches?_simple writable

/-- Words that look like an assignment, a comment, an operator or an expansion
are words of the command all the same. -/
theorem shellLine_reads_as_launch_awkward :
    let command : Command :=
      { name := "awkward"
        environment := [("KEY", "it's"), ("_2", "")]
        workingDir := some ⟨"/my \"dir\""⟩
        invocation := .words ["a=b", "#", "&&", "$x", "^\\'\n", "", "é"] }
    command.Writable ∧
      Shell.andList? command.shellLine =
        some [⟨[], ["cd", "/my \"dir\""]⟩,
          ⟨[("KEY", "it's"), ("_2", "")],
            ["a=b", "#", "&&", "$x", "^\\'\n", "", "é"]⟩] := by
  intro command
  have writable : command.Writable :=
    { names := by decide
      values := by decide
      dir := by simp [command]; decide
      runs := by
        refine ⟨by simp, ?_⟩
        decide }
  exact ⟨writable, (shellLine_reads_as_launch command writable).1⟩

end Command
end LockBench
