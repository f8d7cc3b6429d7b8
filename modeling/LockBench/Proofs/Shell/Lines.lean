import LockBench.Host.Process
import LockBench.Proofs.Shell.AndList

/-!
# Lines made of words

What a line that is put together from words reads as, and the processes that
it starts.
-/

namespace LockBench
namespace Shell

/-! ## Words -/

/-- Whether a text can be handed to a process. -/
def NulFree (text : String) : Prop :=
  '\x00' ∉ text.toList

instance (text : String) : Decidable (NulFree text) :=
  inferInstanceAs (Decidable ('\x00' ∉ text.toList))

/-- Nothing is dropped from a word without NUL. -/
theorem toList_quote
    {word : String}
    (nulFree : NulFree word) :
    (quote word).toList = quoteChars word.toList := by
  have kept : word.toList.filter (· ≠ '\x00') = word.toList := by
    rw [List.filter_eq_self]
    intro c present
    rw [decide_eq_true_eq]
    rintro rfl
    exact nulFree present
  rw [quote, kept, String.toList_ofList]

/-- The letters that the quoted form of a word reads as. -/
def wordLetters (word : String) : List Letter :=
  quotedLetters word.toList

@[simp] theorem spell_wordLetters (word : String) :
    spell (wordLetters word) = word := by
  simp [wordLetters]

/-- A quoted word is no assignment. -/
theorem assignment?_wordLetters (word : String) :
    assignment? (wordLetters word) = none :=
  assignment?_quotedLetters word.toList

/-- A quoted word reads as one word. -/
theorem reads_quote
    {word : String}
    (nulFree : NulFree word) :
    Reads (quote word).toList [.word (wordLetters word)] := by
  rw [toList_quote nulFree]
  exact reads_quoteChars word.toList

/-- The letters of a word that is written without quotes. -/
def bareLetters (word : String) : List Letter :=
  word.toList.map (⟨·, false⟩)

@[simp] theorem spell_bareLetters (word : String) :
    spell (bareLetters word) = word := by
  simp [spell, bareLetters, Function.comp_def]

/-- Whether a word may be written without quotes. -/
def IsBareWord (word : String) : Prop :=
  word.toList ≠ [] ∧ ∀ c ∈ word.toList, Quoting.isBare c = true

instance (word : String) : Decidable (IsBareWord word) :=
  decidable_of_iff
    (word.toList.isEmpty = false ∧ word.toList.all Quoting.isBare = true)
    (by simp [IsBareWord])

/-- A bare word reads as itself. -/
theorem reads_bareWord
    {word : String}
    (bare : IsBareWord word) :
    Reads word.toList [.word (bareLetters word)] :=
  reads_bare bare.1 bare.2

/-- A bare word is no assignment. -/
theorem assignment?_bareLetters
    {word : String}
    (bare : IsBareWord word) : assignment? (bareLetters word) = none := by
  apply assignment?_eq_none
  intro letter member _
  obtain ⟨c, present, rfl⟩ := List.mem_map.mp member
  exact bare.2 c present

/-- A name, a sign and a quoted value read as one word. -/
theorem reads_setting
    {setting : String × String}
    (isVariable : isName setting.1.toList = true)
    (nulFree : NulFree setting.2) :
    Reads (setting.1 ++ "=" ++ quote setting.2).toList
      [.word (settingLetters setting)] := by
  have bareName : IsBareWord setting.1 := by
    refine ⟨?_, isBare_of_isName isVariable⟩
    rintro empty
    simp [empty, isName] at isVariable
  obtain ⟨earlier, letters, equal, fed⟩ := reads_bareWord bareName
  obtain ⟨rfl, rfl⟩ : earlier = [] ∧ letters = bareLetters setting.1 := by
    simpa [eq_comm, List.append_eq_singleton_iff] using equal
  refine ⟨[], settingLetters setting, rfl, ?_⟩
  intro before
  have sign : Reading.step ⟨before, .word (bareLetters setting.1) .bare⟩ '=' =
      some ⟨before, .word (bareLetters setting.1 ++ [equalSign]) .bare⟩ := rfl
  have text_eq : (setting.1 ++ "=" ++ quote setting.2).toList =
      setting.1.toList ++ '=' :: quoteChars setting.2.toList := by
    simp [toList_quote nulFree]
  rw [text_eq, Reading.feed_append, fed, Option.bind_some, List.append_nil,
    Reading.feed_cons, sign, Option.bind_some, feed_quoteChars]
  simp [settingLetters, bareLetters]

/-- The text left of a setting is the setting itself. -/
@[simp] theorem spell_settingLetters (setting : String × String) :
    spell (settingLetters setting) = setting.1 ++ "=" ++ setting.2 := by
  simp [spell, settingLetters, equalSign, Function.comp_def, ← String.toList_inj]

/-! ## Lists of words -/

/-- A word as it is written, and the letters that it reads as. -/
structure Piece where
  /-- The word as it is written. -/
  text : String
  /-- The letters of the word. -/
  letters : List Letter

namespace Piece

/-- A word that is written without quotes. -/
def bare (word : String) : Piece :=
  ⟨word, bareLetters word⟩

/-- A word that is written in its quoted form. -/
def quoted (word : String) : Piece :=
  ⟨quote word, wordLetters word⟩

/-- A name, a sign and a quoted value. -/
def setting (pair : String × String) : Piece :=
  ⟨pair.1 ++ "=" ++ quote pair.2, settingLetters pair⟩

/-- What is written reads as the letters. -/
def Readable (piece : Piece) : Prop :=
  Reads piece.text.toList [.word piece.letters]

end Piece

/-- Words with blanks between them are one command. -/
theorem readsList_intercalate
    {pieces : List Piece}
    (somePiece : pieces ≠ [])
    (readable : ∀ piece ∈ pieces, piece.Readable) :
    ReadsList (" ".intercalate (pieces.map Piece.text)).toList
      [.ofWords (pieces.map Piece.letters)] := by
  apply ReadsList.ofWords (by simpa using somePiece)
  have readsPieces := Reads.intercalate somePiece readable
  simpa [Function.comp_def] using readsPieces

/-- Words of which the first is no assignment are the words of a command
without assignments. -/
theorem readsList_words
    {first : Piece}
    {rest : List Piece}
    (noAssignment : assignment? first.letters = none)
    (readable : ∀ piece ∈ first :: rest, piece.Readable) :
    ReadsList (" ".intercalate ((first :: rest).map Piece.text)).toList
      [⟨[], (first :: rest).map fun piece => spell piece.letters⟩] := by
  have reads := readsList_intercalate (List.cons_ne_nil first rest) readable
  have command_eq : SimpleCommand.ofWords ((first :: rest).map Piece.letters) =
      ⟨[], (first :: rest).map fun piece => spell piece.letters⟩ := by
    rw [List.map_cons, SimpleCommand.ofWords_cons noAssignment]
    simp [Function.comp_def]
  rw [command_eq] at reads
  exact reads

/-- Quoted words are the words of a command. -/
theorem ofWords_map_wordLetters (words : List String) :
    SimpleCommand.ofWords (words.map wordLetters) = ⟨[], words⟩ := by
  cases words with
  | nil => rfl
  | cons word rest =>
      rw [List.map_cons,
        SimpleCommand.ofWords_cons (assignment?_wordLetters word),
        ← List.map_cons, List.map_map]
      simp [Function.comp_def]

/-- Assignments and quoted words with blanks between them are one command. -/
theorem readsList_settings
    {settings : List (String × String)}
    {words : List String}
    (someWord : words ≠ [])
    (areVariables : ∀ setting ∈ settings, isName setting.1.toList = true)
    (nulFreeValues : ∀ setting ∈ settings, NulFree setting.2)
    (nulFreeWords : ∀ word ∈ words, NulFree word) :
    ReadsList
      (" ".intercalate (settings.map (fun setting =>
        setting.1 ++ "=" ++ quote setting.2) ++ words.map quote)).toList
      [⟨settings, words⟩] := by
  let pieces := settings.map Piece.setting ++ words.map Piece.quoted
  have readable : ∀ piece ∈ pieces, piece.Readable := by
    intro piece member
    rcases List.mem_append.mp member with isSetting | isWord
    · obtain ⟨setting, present, rfl⟩ := List.mem_map.mp isSetting
      exact reads_setting (areVariables setting present)
        (nulFreeValues setting present)
    · obtain ⟨word, present, rfl⟩ := List.mem_map.mp isWord
      exact reads_quote (nulFreeWords word present)
  have readsPieces := readsList_intercalate (by simp [pieces, someWord])
    readable
  have letters_eq : pieces.map Piece.letters =
      settings.map settingLetters ++ words.map wordLetters := by
    simp [pieces, Piece.setting, Piece.quoted, Function.comp_def]
  rw [letters_eq, SimpleCommand.ofWords_settings areVariables,
    ofWords_map_wordLetters] at readsPieces
  simpa [pieces, Piece.setting, Piece.quoted, Function.comp_def]
    using readsPieces

/-- Quoted words with blanks between them are one command of those words. -/
theorem readsList_join
    {words : List String}
    (someWord : words ≠ [])
    (nulFree : ∀ word ∈ words, NulFree word) :
    ReadsList (join words).toList [⟨[], words⟩] := by
  have reads := readsList_settings someWord
    (List.forall_mem_nil fun setting : String × String =>
      isName setting.1.toList = true)
    (List.forall_mem_nil fun setting : String × String => NulFree setting.2)
    nulFree
  simpa [join] using reads

/-! ## The processes of a line -/

/-- The process that a simple command starts in a directory. -/
def SimpleCommand.launch?
    (dir : Option Path) : SimpleCommand -> Option Launch
  | ⟨_, []⟩ => none
  | ⟨assignments, program :: arguments⟩ =>
    some ⟨program, arguments, assignments, dir⟩

/-- The processes that a list of commands starts, one after another if all
succeed.  A change of the directory in front of other commands starts no
process, but says where the others run. -/
def listLaunches? : List SimpleCommand -> Option (List Launch)
  | ⟨[], ["cd", dir]⟩ :: command :: rest =>
    (command :: rest).mapM fun other => other.launch? (some ⟨dir⟩)
  | commands => commands.mapM fun command => command.launch? none

/-- The processes that a line starts. -/
def launches? (line : String) : Option (List Launch) :=
  (andList? line).bind listLaunches?

end Shell
end LockBench
