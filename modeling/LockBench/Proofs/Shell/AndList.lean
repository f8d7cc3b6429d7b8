import LockBench.Proofs.Shell.Quoting
import Mathlib.Data.List.TakeWhile

/-!
# And-lists of simple commands

A line that holds no operator but `&&` is a list of simple commands, each of
which runs if all before it succeeded.  Leading words of the form `name=value`
are assignments, provided that neither the name nor the sign is quoted.  What
is put together from quoted words reads as exactly those words.
-/

namespace LockBench
namespace Shell

/-- A command without operators. -/
structure SimpleCommand where
  /-- The variables that are set for it. -/
  assignments : List (String × String) := []
  /-- The command's name and its arguments. -/
  words : List String
  deriving DecidableEq, Repr

/-! ## Words and assignments -/

/-- The text that is left of a word when its quotes are removed. -/
def spell (letters : List Letter) : String :=
  String.ofList (letters.map Letter.char)

/-- Characters that the name of a variable is made of. -/
def isNameChar (c : Char) : Bool :=
  c.isAlphanum || c = '_'

/-- Whether some characters are the name of a variable. -/
def isName : List Char -> Bool
  | [] => false
  | c :: rest => !c.isDigit && (c :: rest).all isNameChar

/-- The sign of an assignment. -/
def equalSign : Letter := ⟨'=', false⟩

/-- The assignment that a word is, if it is one. -/
def assignment? (letters : List Letter) : Option (String × String) :=
  let name := letters.takeWhile (· ≠ equalSign)
  match letters.dropWhile (· ≠ equalSign) with
  | [] => none
  | _ :: value =>
    if name.all (!·.quoted) && isName (name.map Letter.char) then
      some (spell name, spell value)
    else none

/-- The simple command that some words are. -/
def SimpleCommand.ofWords : List (List Letter) -> SimpleCommand
  | [] => ⟨[], []⟩
  | word :: rest =>
    match assignment? word with
    | some setting =>
      let command := ofWords rest
      ⟨setting :: command.assignments, command.words⟩
    | none => ⟨[], (word :: rest).map spell⟩

/-! ## Reading an and-list -/

/-- The letters of a token that is a word. -/
def Token.letters? : Token -> Option (List Letter)
  | .word letters => some letters
  | .operator _ => none

/-- The simple command that some tokens are; an empty one is none. -/
def SimpleCommand.ofTokens? : List Token -> Option SimpleCommand
  | [] => none
  | tokens => (tokens.mapM Token.letters?).map ofWords

/-- The commands of a line without operators other than `&&`. -/
def andList? (line : String) : Option (List SimpleCommand) :=
  (tokens? line).bind fun tokens =>
    (tokens.splitOn .andIf).mapM SimpleCommand.ofTokens?

@[simp] theorem mapM_letters?
    (words : List (List Letter)) :
    (words.map Token.word).mapM Token.letters? = some words := by
  induction words with
  | nil => rfl
  | cons word rest inductionHypothesis =>
      simp [List.mapM_cons, Token.letters?, inductionHypothesis]

/-- Words are one command. -/
theorem SimpleCommand.ofTokens?_map_word
    {words : List (List Letter)}
    (someWord : words ≠ []) :
    ofTokens? (words.map .word) = some (ofWords words) := by
  cases words with
  | nil => exact absurd rfl someWord
  | cons word rest =>
      rw [List.map_cons, ofTokens?, ← List.map_cons, mapM_letters?,
        Option.map_some]
      simp

/-! ## Texts that are and-lists -/

/-- A text reads as some commands, also where more commands stand before it or
after it. -/
def ReadsList
    (text : List Char)
    (commands : List SimpleCommand) : Prop :=
  ∃ segments : List (List Token), segments ≠ [] ∧
    (∀ segment ∈ segments, Token.andIf ∉ segment) ∧
    segments.mapM SimpleCommand.ofTokens? = some commands ∧
    Reads text ([Token.andIf].intercalate segments)

/-- A whole line is the list that its text reads as. -/
theorem ReadsList.andList?_eq
    {text : List Char}
    {commands : List SimpleCommand}
    (reads : ReadsList text commands) :
    andList? (String.ofList text) = some commands := by
  obtain ⟨segments, someSegment, noOperator, read, readsTokens⟩ := reads
  rw [andList?, readsTokens.tokens?_eq, Option.bind_some,
    List.splitOn_intercalate Token.andIf noOperator someSegment, read]

/-- Words without operators are one command. -/
theorem ReadsList.ofWords
    {text : List Char}
    {words : List (List Letter)}
    (someWord : words ≠ [])
    (reads : Reads text (words.map .word)) :
    ReadsList text [.ofWords words] := by
  refine ⟨[words.map .word], by simp, ?_, ?_, by simpa using reads⟩
  · simp [Token.andIf]
  · simp [SimpleCommand.ofTokens?_map_word someWord]

theorem intercalate_append
    (mark : List α)
    {left right : List (List α)}
    (someLeft : left ≠ [])
    (someRight : right ≠ []) :
    mark.intercalate (left ++ right) =
      mark.intercalate left ++ mark ++ mark.intercalate right := by
  induction left with
  | nil => exact absurd rfl someLeft
  | cons first rest inductionHypothesis =>
      cases rest with
      | nil =>
          rw [List.singleton_append,
            List.intercalate_cons_of_ne_nil someRight,
            List.intercalate_singleton]
      | cons next others =>
          rw [List.cons_append, List.cons_append, List.intercalate_cons_cons,
            ← List.cons_append, inductionHypothesis (by simp),
            List.intercalate_cons_cons]
          simp only [List.append_assoc]

/-- Lists with the operator between them are one list. -/
theorem ReadsList.andIf
    {left right : List Char}
    {leftCommands rightCommands : List SimpleCommand}
    (readsLeft : ReadsList left leftCommands)
    (readsRight : ReadsList right rightCommands) :
    ReadsList (left ++ [' ', '&', '&', ' '] ++ right)
      (leftCommands ++ rightCommands) := by
  obtain ⟨segments, someLeft, plainLeft, readLeft, tokensLeft⟩ := readsLeft
  obtain ⟨others, someRight, plainRight, readRight, tokensRight⟩ := readsRight
  refine ⟨segments ++ others, by simp [someLeft], ?_, ?_, ?_⟩
  · intro segment member
    rcases List.mem_append.mp member with inLeft | inRight
    · exact plainLeft segment inLeft
    · exact plainRight segment inRight
  · simp [List.mapM_append, readLeft, readRight]
  · rw [intercalate_append [Token.andIf] someLeft someRight]
    simpa using tokensLeft.andIf tokensRight

/-! ## Quoted words and assignments -/

/-- A word whose letters are bare unless quoted is no assignment. -/
theorem assignment?_eq_none
    {letters : List Letter}
    (bare : ∀ letter ∈ letters, letter.quoted = false ->
      Quoting.isBare letter.char = true) :
    assignment? letters = none := by
  have noSign : ∀ letter ∈ letters, letter ≠ equalSign := by
    rintro letter member rfl
    exact absurd (bare equalSign member rfl) (by decide)
  have nothingLeft : letters.dropWhile (· ≠ equalSign) = [] := by
    rw [List.dropWhile_eq_nil_iff]
    intro letter member
    simpa using noSign letter member
  simp only [assignment?, nothingLeft]

/-- The letters of an assignment as a shell line writes it. -/
def settingLetters (setting : String × String) : List Letter :=
  setting.1.toList.map (⟨·, false⟩) ++
    equalSign :: quotedLetters setting.2.toList

theorem isBare_of_isNameChar
    {c : Char}
    (nameChar : isNameChar c = true) : Quoting.isBare c = true := by
  simp only [isNameChar, Bool.or_eq_true, decide_eq_true_eq] at nameChar
  rcases nameChar with alphanumeric | rfl
  · simp [Quoting.isBare, alphanumeric]
  · decide

/-- The name of a variable is made of bare characters. -/
theorem isBare_of_isName
    {name : List Char}
    (isVariable : isName name = true) :
    ∀ c ∈ name, Quoting.isBare c = true := by
  cases name with
  | nil => simp
  | cons c rest =>
      rw [isName, Bool.and_eq_true, List.all_eq_true] at isVariable
      exact fun other present =>
        isBare_of_isNameChar (isVariable.2 other present)

/-- The value of an assignment is what was quoted. -/
theorem assignment?_settingLetters
    {setting : String × String}
    (isVariable : isName setting.1.toList = true) :
    assignment? (settingLetters setting) = some setting := by
  have noSign : ∀ letter ∈ setting.1.toList.map (Letter.mk · false),
      decide (letter ≠ equalSign) = true := by
    intro letter member
    obtain ⟨c, present, rfl⟩ := List.mem_map.mp member
    have bare := isBare_of_isName isVariable c present
    rw [decide_eq_true_eq]
    intro equal
    have isSign : c = '=' := congrArg Letter.char equal
    exact absurd bare (by rw [isSign]; decide)
  rw [assignment?, settingLetters, List.takeWhile_append_of_pos noSign,
    List.dropWhile_append_of_pos noSign]
  simp [spell, isVariable, Function.comp_def]

/-- A word that was quoted is no assignment. -/
theorem assignment?_quotedLetters (word : List Char) :
    assignment? (quotedLetters word) = none :=
  assignment?_eq_none fun _ member unquoted =>
    isBare_of_mem_quotedLetters member unquoted

/-- Settings in front of words are the assignments of the command. -/
theorem SimpleCommand.ofWords_settings
    {settings : List (String × String)}
    (areVariables : ∀ setting ∈ settings, isName setting.1.toList = true)
    (words : List (List Letter)) :
    ofWords (settings.map settingLetters ++ words) =
      ⟨settings ++ (ofWords words).assignments, (ofWords words).words⟩ := by
  induction settings with
  | nil => simp
  | cons setting rest inductionHypothesis =>
      rw [List.map_cons, List.cons_append, ofWords,
        assignment?_settingLetters (areVariables setting (by simp)),
        inductionHypothesis fun other member =>
          areVariables other (List.mem_cons_of_mem _ member)]
      simp

/-- A command that starts with a word that is no assignment has none. -/
theorem SimpleCommand.ofWords_cons
    {word : List Letter}
    (noAssignment : assignment? word = none)
    (rest : List (List Letter)) :
    ofWords (word :: rest) = ⟨[], (word :: rest).map spell⟩ := by
  rw [ofWords, noAssignment]

@[simp] theorem spell_quotedLetters (word : List Char) :
    spell (quotedLetters word) = String.ofList word := by
  simp [spell]

end Shell
end LockBench
