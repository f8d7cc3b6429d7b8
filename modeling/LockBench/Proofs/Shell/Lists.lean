import LockBench.Proofs.Shell.Lines

/-!
# Lists of commands

A line may hold simple commands with `&&`, `||`, `;` and `&` between them.  The
reader only looks for where a command ends: it keeps each command as it is
written, with its quotes, variables and redirections, and puts one blank
between its words.  What nests other commands, and what is no simple command,
is refused.
-/

namespace LockBench
namespace Shell

/-- What stands between two commands of which the second depends on the
first. -/
inductive Link
  /-- The second runs if the first succeeded. -/
  | andIf
  /-- The second runs if the first failed. -/
  | orIf
  deriving DecidableEq, Repr

/-- What stands after commands on which nothing that follows depends. -/
inductive Separator
  /-- What follows waits for them. -/
  | sequence
  /-- They run in the background, in a shell of their own. -/
  | background
  deriving DecidableEq, Repr

/-- What stands after a command. -/
inductive Connective
  | link (link : Link)
  | separator (separator : Separator)
  deriving DecidableEq, Repr

/-- A command of a line, and what stands after it. -/
structure Part where
  /-- The command as it is written. -/
  command : String
  /-- What stands after it; nothing is as good as a semicolon. -/
  connective : Connective
  deriving DecidableEq, Repr

/-! ## The reader -/

/-- Where in a command the next character stands. -/
inductive Place
  /-- In front of a word. -/
  | between
  /-- In a word. -/
  | bare
  /-- After the first sign of a redirection. -/
  | redirection (sign : Char)
  /-- In front of the word that a redirection needs. -/
  | target
  /-- After a dollar sign. -/
  | dollar
  /-- After a backslash. -/
  | escaped
  | single
  | double
  | doubleEscaped
  | doubleDollar
  /-- After the first sign of an operator. -/
  | operator (sign : Char)
  deriving DecidableEq, Repr

/-- A command that is read. -/
structure Cursor where
  /-- What has been read of it. -/
  command : List Char := []
  /-- Where the next character stands. -/
  place : Place := .between
  deriving DecidableEq, Repr

/-- Words that are no command where they come first. -/
def reservedWords : List String :=
  ["!", "\x7b", "\x7d", "case", "do", "done", "elif", "else", "esac", "fi",
    "for", "if", "in", "then", "until", "while"]

/-- A command that is complete; none is empty, or starts with a reserved
word. -/
def complete?
    (command : List Char)
    (connective : Connective) : Option (List Part) :=
  if command = [] ∨
      String.ofList (command.takeWhile (· ≠ ' ')) ∈ reservedWords then none
  else some [⟨String.ofList command, connective⟩]

namespace Cursor

/-- A command in front of its next word. -/
def spaced : List Char -> List Char
  | [] => []
  | command => command ++ [' ']

/-- Go on with a word. -/
def inWord?
    (command : List Char)
    (c : Char) : Option Cursor :=
  if c = '\x27' then some ⟨command ++ [c], .single⟩
  else if c = '\x22' then some ⟨command ++ [c], .double⟩
  else if c = '\\' then some ⟨command ++ [c], .escaped⟩
  else if c = '$' then some ⟨command ++ [c], .dollar⟩
  else if ['(', ')', '\x60', '\n'].contains c then none
  else some ⟨command ++ [c], .bare⟩

/-- Go on in front of a word, or in a word that may end. -/
def next?
    (atWord inside : List Char)
    (comment : Bool)
    (c : Char) : Option Cursor :=
  if isBlank c then some ⟨inside, .between⟩
  else if ['&', '|', ';'].contains c then some ⟨inside, .operator c⟩
  else if ['<', '>'].contains c then some ⟨atWord ++ [c], .redirection c⟩
  else if c = '#' ∧ comment then none
  else inWord? atWord c

/-- Go on between two words. -/
def start? (command : List Char) : Char -> Option Cursor :=
  next? (spaced command) command true

/-- Go on in a word. -/
def extend? (command : List Char) : Char -> Option Cursor :=
  next? command command false

/-- Go on in front of the word that a redirection needs. -/
def target?
    (command : List Char)
    (c : Char) : Option Cursor :=
  if isBlank c then some ⟨command, .target⟩
  else if isMark c ∨ c = '#' then none
  else inWord? command c

/-- Go on between double quotes. -/
def quoted?
    (command : List Char)
    (c : Char) : Option Cursor :=
  if c = '\x22' then some ⟨command ++ [c], .bare⟩
  else if c = '\\' then some ⟨command ++ [c], .doubleEscaped⟩
  else if c = '$' then some ⟨command ++ [c], .doubleDollar⟩
  else if c = '\x60' then none
  else some ⟨command ++ [c], .double⟩

/-- Read one character inside a command. -/
def inside?
    (command : List Char)
    (place : Place)
    (c : Char) : Option Cursor :=
  match place with
  | .between => start? command c
  | .bare => extend? command c
  | .redirection sign =>
    if [['>', '>'], ['<', '&'], ['>', '&'], ['<', '>'], ['>', '|']].contains
        [sign, c] then
      some ⟨command ++ [c], .target⟩
    else target? command c
  | .target => target? command c
  | .dollar =>
    if ['(', '{', '\x27', '\x22'].contains c then none else extend? command c
  | .escaped => if c = '\n' then none else some ⟨command ++ [c], .bare⟩
  | .single =>
    some ⟨command ++ [c], if c = '\x27' then .bare else .single⟩
  | .double => quoted? command c
  | .doubleEscaped =>
    if c = '\n' then none else some ⟨command ++ [c], .double⟩
  | .doubleDollar =>
    if ['(', '{'].contains c then none else quoted? command c
  | .operator _ => none

/-- The connective that an operator of one sign is. -/
def shortConnective? (sign : Char) : Option Connective :=
  if sign = ';' then some (.separator .sequence)
  else if sign = '&' then some (.separator .background)
  else none

/-- The connective that an operator of two signs is. -/
def longConnective? (sign : Char) : Option Connective :=
  if sign = '&' then some (.link .andIf)
  else if sign = '|' then some (.link .orIf)
  else none

/-- Read one character, which may complete a command. -/
def step
    (cursor : Cursor)
    (c : Char) : Option (List Part × Cursor) :=
  match cursor.place with
  | .operator sign => do
    if c = sign then
      return (← complete? cursor.command (← longConnective? sign), {})
    else
      return (← complete? cursor.command (← shortConnective? sign),
        ← start? [] c)
  | place => (inside? cursor.command place c).map ([], ·)

/-- What is left at the end of a line. -/
def finish? (cursor : Cursor) : Option (List Part) :=
  match cursor.place with
  | .between | .bare | .dollar =>
    if cursor.command = [] then some []
    else complete? cursor.command (.separator .sequence)
  | .operator sign => (shortConnective? sign).bind (complete? cursor.command)
  | _ => none

/-- The commands of the rest of a line. -/
def parts? : Cursor -> List Char -> Option (List Part)
  | cursor, [] => cursor.finish?
  | cursor, c :: rest =>
    (cursor.step c).bind fun (done, next) =>
      (parts? next rest).map (done ++ ·)

end Cursor

/-! ## And-or lists -/

/-- Commands of which each depends on those before it. -/
structure AndOr where
  /-- The first command. -/
  first : String
  /-- The others. -/
  more : List (Link × String) := []
  deriving DecidableEq, Repr

/-- An and-or list behind one more command. -/
def AndOr.after
    (command : String)
    (link : Link)
    (list : AndOr) : AndOr :=
  ⟨command, (link, list.first) :: list.more⟩

/-- The and-or lists that some commands are; the last of them is complete. -/
def andOrs? : List Part -> Option (List (AndOr × Separator))
  | [] => some []
  | ⟨command, .separator separator⟩ :: rest => do
    return (⟨command, []⟩, separator) :: (← andOrs? rest)
  | ⟨command, .link link⟩ :: rest => do
    match ← andOrs? rest with
    | [] => none
    | (first, separator) :: others =>
      return (first.after command link, separator) :: others

/-- The and-or lists of a line that is a list of simple commands, of which there
is at least one. -/
def list? (line : String) : Option (List (AndOr × Separator)) :=
  (Cursor.parts? {} line.toList).bind andOrs? |>.filter (!·.isEmpty)

/-- A line that is a list has an and-or list. -/
theorem exists_eq_cons_of_list?
    {line : String}
    {lists : List (AndOr × Separator)}
    (isList : list? line = some lists) :
    ∃ list separator others, lists = (list, separator) :: others := by
  obtain ⟨-, notEmpty⟩ := Option.filter_eq_some_iff.mp isList
  cases lists with
  | nil => simp at notEmpty
  | cons entry others => exact ⟨entry.1, entry.2, others, rfl⟩

/-! ## Reading a quoted word -/

namespace Cursor

/-- Some characters complete no command, and the reader goes on from another
place. -/
def Moves
    (cursor : Cursor)
    (text : List Char)
    (next : Cursor) : Prop :=
  ∀ rest, parts? cursor (text ++ rest) = parts? next rest

variable {command chunk left right : List Char} {c : Char}
  {cursor middle next : Cursor}

theorem moves_nil (cursor : Cursor) : cursor.Moves [] cursor :=
  fun _ => rfl

theorem moves_of_step
    (read : cursor.step c = some ([], next)) : cursor.Moves [c] next := by
  intro rest
  rw [List.singleton_append, parts?, read, Option.bind_some]
  simp

theorem Moves.trans
    (first : cursor.Moves left middle)
    (second : middle.Moves right next) :
    cursor.Moves (left ++ right) next := by
  intro rest
  rw [List.append_assoc, first, second]

theorem Moves.cons
    (read : cursor.step c = some ([], middle))
    (later : middle.Moves right next) :
    cursor.Moves (c :: right) next :=
  (moves_of_step read).trans later

open Quoting

/-- A bare character goes on with a word. -/
theorem step_of_isBare
    (bare : isBare c = true)
    (command : List Char) :
    step ⟨command, .bare⟩ c = some ([], ⟨command ++ [c], .bare⟩) := by
  have notSpecial := not_contains_of_isBare bare
    [' ', '\t', '&', '|', ';', '<', '>', '\x27', '\x22', '\\', '$', '(', ')',
      '\x60', '\n'] (by decide)
  simp only [List.contains_eq_mem, List.mem_cons, List.not_mem_nil, or_false,
    decide_eq_false_iff_not, not_or] at notSpecial
  simp [step, inside?, extend?, next?, inWord?, isBlank, notSpecial]

theorem moves_bare
    (bare : ∀ c ∈ chunk, isBare c = true)
    (command : List Char) :
    Moves ⟨command, .bare⟩ chunk ⟨command ++ chunk, .bare⟩ := by
  induction chunk generalizing command with
  | nil => simpa using moves_nil _
  | cons c rest inductionHypothesis =>
      rw [List.forall_mem_cons] at bare
      rw [List.append_cons command]
      exact .cons (step_of_isBare bare.1 command)
        (inductionHypothesis bare.2 _)

/-- Single quotes end at the next one. -/
theorem moves_single
    (noQuote : ∀ c ∈ chunk, c ≠ '\x27')
    (command : List Char) :
    Moves ⟨command, .single⟩ (chunk ++ ['\x27'])
      ⟨command ++ (chunk ++ ['\x27']), .bare⟩ := by
  induction chunk generalizing command with
  | nil => exact moves_of_step rfl
  | cons c rest inductionHypothesis =>
      rw [List.forall_mem_cons] at noQuote
      have read : step ⟨command, .single⟩ c =
          some ([], ⟨command ++ [c], .single⟩) := by
        simp [step, inside?, noQuote.1]
      rw [List.cons_append, List.append_cons command]
      exact .cons read (inductionHypothesis noQuote.2 _)

/-- Inside double quotes an escaped character does not end them. -/
theorem moves_escapeDouble
    (notExpanding : isExpanding c = false)
    (command : List Char) :
    Moves ⟨command, .double⟩ (escapeDouble c)
      ⟨command ++ escapeDouble c, .double⟩ := by
  rw [escapeDouble]
  split
  · rename_i isProtected
    have notNewline : c ≠ '\n' := by
      rintro rfl
      exact absurd isProtected (by decide)
    have opens : step ⟨command, .double⟩ '\\' =
        some ([], ⟨command ++ ['\\'], .doubleEscaped⟩) := rfl
    have read : step ⟨command ++ ['\\'], .doubleEscaped⟩ c =
        some ([], ⟨command ++ ['\\'] ++ [c], .double⟩) := by
      simp [step, inside?, notNewline]
    rw [List.append_cons command]
    exact .cons opens (moves_of_step read)
  · rename_i notProtected
    rw [not_or] at notProtected
    have calm : c ≠ '$' ∧ c ≠ '\x60' := by
      simpa [isExpanding] using notExpanding
    refine moves_of_step ?_
    simp [step, inside?, quoted?, notProtected, calm]

theorem moves_double
    (notExpanding : ∀ c ∈ chunk, isExpanding c = false)
    (command : List Char) :
    Moves ⟨command, .double⟩ (chunk.flatMap escapeDouble ++ ['\x22'])
      ⟨command ++ (chunk.flatMap escapeDouble ++ ['\x22']), .bare⟩ := by
  induction chunk generalizing command with
  | nil => exact moves_of_step rfl
  | cons c rest inductionHypothesis =>
      rw [List.forall_mem_cons] at notExpanding
      rw [List.flatMap_cons, List.append_assoc, ← List.append_assoc command]
      exact (moves_escapeDouble notExpanding.1 command).trans
        (inductionHypothesis notExpanding.2 _)

/-- A written chunk is a part of a word. -/
theorem moves_write
    {piece : Quoting × List Char}
    (suits : ∀ c ∈ piece.2, piece.1.Suits c)
    (command : List Char) :
    Moves ⟨command, .bare⟩ (piece.1.write piece.2)
      ⟨command ++ piece.1.write piece.2, .bare⟩ := by
  obtain ⟨quoting, chunk⟩ := piece
  cases quoting with
  | bare => exact moves_bare suits command
  | single =>
      have opens : step ⟨command, .bare⟩ '\x27' =
          some ([], ⟨command ++ ['\x27'], .single⟩) := rfl
      rw [write, List.cons_append, List.append_cons command]
      exact .cons opens (moves_single suits _)
  | double =>
      have opens : step ⟨command, .bare⟩ '\x22' =
          some ([], ⟨command ++ ['\x22'], .double⟩) := rfl
      rw [write, List.cons_append, List.append_cons command]
      exact .cons opens (moves_double suits _)

theorem moves_flatMap_write
    {pieces : List (Quoting × List Char)}
    (suits : ∀ piece ∈ pieces, ∀ c ∈ piece.2, piece.1.Suits c)
    (command : List Char) :
    Moves ⟨command, .bare⟩ (pieces.flatMap fun piece => piece.1.write piece.2)
      ⟨command ++ pieces.flatMap fun piece => piece.1.write piece.2,
        .bare⟩ := by
  induction pieces generalizing command with
  | nil => simpa using moves_nil _
  | cons piece rest inductionHypothesis =>
      rw [List.forall_mem_cons] at suits
      rw [List.flatMap_cons, ← List.append_assoc]
      exact (moves_write suits.1 command).trans
        (inductionHypothesis suits.2 _)

/-- Where a word starts, the blank in front of it is put in. -/
theorem step_of_startsWord
    (starts : StartsWord c)
    (someCommand : command ≠ []) :
    step ⟨command, .between⟩ c = step ⟨command ++ [' '], .bare⟩ c := by
  obtain ⟨notBlank, notMark, notHash⟩ := starts
  have notSpecial : c ∉ ['&', '|', ';'] ∧ c ∉ ['<', '>'] := by
    constructor <;> intro member <;> simp_all [isMark]
  have spaced_eq : spaced command = command ++ [' '] := by
    cases command with
    | nil => exact absurd rfl someCommand
    | cons first rest => rfl
  simp [step, inside?, start?, extend?, next?, notBlank, notSpecial, notHash,
    spaced_eq]

/-- A quoted word is a word of the command as it is written. -/
theorem moves_quote
    (someCommand : command ≠ [])
    (word : String) :
    Moves ⟨command, .between⟩ (quote word).toList
      ⟨command ++ [' '] ++ (quote word).toList, .bare⟩ := by
  rw [quote, String.toList_ofList]
  generalize word.toList.filter (· ≠ '\x00') = chars
  have asBare : Moves ⟨command ++ [' '], .bare⟩ (quoteChars chars)
      ⟨command ++ [' '] ++ quoteChars chars, .bare⟩ := by
    rw [quoteChars_eq_flatMap]
    exact moves_flatMap_write (fun _ => suits_of_mem_chunks) _
  obtain ⟨c, later, quoted_eq, starts⟩ := quoteChars_startsWord chars
  intro rest
  rw [← asBare rest, quoted_eq, List.cons_append, parts?, parts?,
    step_of_startsWord starts someCommand]

end Cursor

/-! ## Lists that are written -/

/-- A command that the reader takes up to its end, and no further. -/
structure IsCommand (command : String) : Prop where
  /-- It is read as a whole, and ends in a word. -/
  moves : Cursor.Moves {} command.toList ⟨command.toList, .bare⟩
  /-- It is complete. -/
  complete : ∀ connective,
    complete? command.toList connective = some [⟨command, connective⟩]

/-- What stands after a command, with blanks around it. -/
def Connective.text : Connective -> List Char
  | .link .andIf => [' ', '&', '&', ' ']
  | .link .orIf => [' ', '|', '|', ' ']
  | .separator .sequence => [' ', ';', ' ']
  | .separator .background => [' ', '&', ' ']

/-- A command as it is written, with what stands after it. -/
def Part.text (part : Part) : List Char :=
  part.command.toList ++ part.connective.text

/-- The commands of an and-or list that starts with a command. -/
def partsOf
    (command : String)
    (separator : Separator) : List (Link × String) -> List Part
  | [] => [⟨command, .separator separator⟩]
  | (link, next) :: more =>
    ⟨command, .link link⟩ :: partsOf next separator more

/-- The commands of some and-or lists. -/
def allParts (lists : List (AndOr × Separator)) : List Part :=
  lists.flatMap fun (list, separator) => partsOf list.first separator list.more

namespace Cursor

section Written

variable {command : String} {part : Part}

/-- After a command, what stands after it is read up to the blank that ends
it. -/
theorem exists_step_connective
    (isCommand : IsCommand command)
    (connective : Connective) :
    ∃ sign c tail, connective.text = ' ' :: sign :: c :: tail ∧
      step ⟨command.toList, .between⟩ sign =
        some ([], ⟨command.toList, .operator sign⟩) ∧
      step ⟨command.toList, .operator sign⟩ c =
        some ([⟨command, connective⟩], {}) ∧
      Moves {} tail {} := by
  have blank : Moves {} [' '] {} := moves_of_step rfl
  have starts : start? [] ' ' = some {} := rfl
  match connective with
  | .link .andIf =>
      exact ⟨'&', '&', [' '], rfl, rfl,
        by simp [step, longConnective?, isCommand.complete], blank⟩
  | .link .orIf =>
      exact ⟨'|', '|', [' '], rfl, rfl,
        by simp [step, longConnective?, isCommand.complete], blank⟩
  | .separator .sequence =>
      exact ⟨';', ' ', [], rfl, rfl,
        by simp [step, shortConnective?, isCommand.complete, starts],
        moves_nil _⟩
  | .separator .background =>
      exact ⟨'&', ' ', [], rfl, rfl,
        by simp [step, shortConnective?, isCommand.complete, starts],
        moves_nil _⟩

/-- A command that is written is the first that is read. -/
theorem parts?_append
    (isCommand : IsCommand part.command)
    (text : List Char) :
    parts? {} (part.text ++ text) = (parts? {} text).map (part :: ·) := by
  obtain ⟨command, connective⟩ := part
  obtain ⟨sign, c, tail, text_eq, opens, read, blank⟩ :=
    exists_step_connective isCommand connective
  have ends : Moves {} (command.toList ++ [' ', sign])
      ⟨command.toList, .operator sign⟩ :=
    isCommand.moves.trans (.cons rfl (moves_of_step opens))
  have written_eq : Part.text ⟨command, connective⟩ ++ text =
      command.toList ++ [' ', sign] ++ c :: (tail ++ text) := by
    simp [Part.text, text_eq]
  rw [written_eq, ends, parts?, read, Option.bind_some]
  dsimp only
  rw [blank]
  rfl

/-- Commands that are written are read one after another. -/
theorem parts?_written
    {parts : List Part}
    (areCommands : ∀ part ∈ parts, IsCommand part.command) :
    parts? {} (parts.flatMap Part.text) = some parts := by
  induction parts with
  | nil => rfl
  | cons part rest inductionHypothesis =>
      rw [List.forall_mem_cons] at areCommands
      rw [List.flatMap_cons, parts?_append areCommands.1,
        inductionHypothesis areCommands.2, Option.map_some]

end Written

end Cursor

theorem andOrs?_partsOf
    (list : AndOr)
    (separator : Separator)
    (rest : List Part) :
    andOrs? (partsOf list.first separator list.more ++ rest) =
      (andOrs? rest).map ((list, separator) :: ·) := by
  obtain ⟨first, more⟩ := list
  induction more generalizing first with
  | nil =>
      rw [partsOf, List.singleton_append, andOrs?]
      cases andOrs? rest <;> rfl
  | cons entry others inductionHypothesis =>
      obtain ⟨link, next⟩ := entry
      rw [partsOf, List.cons_append, andOrs?, inductionHypothesis]
      cases andOrs? rest <;> rfl

theorem andOrs?_allParts (lists : List (AndOr × Separator)) :
    andOrs? (allParts lists) = some lists := by
  induction lists with
  | nil => rfl
  | cons entry rest inductionHypothesis =>
      rw [allParts, List.flatMap_cons, ← allParts, andOrs?_partsOf,
        inductionHypothesis, Option.map_some]

/-- A list that is written from commands is read as that list. -/
theorem list?_written
    {lists : List (AndOr × Separator)}
    (someList : lists ≠ [])
    (areCommands : ∀ part ∈ allParts lists, IsCommand part.command) :
    list? (String.ofList ((allParts lists).flatMap Part.text)) =
      some lists := by
  rw [list?, String.toList_ofList, Cursor.parts?_written areCommands,
    Option.bind_some, andOrs?_allParts, Option.filter_some]
  simp [someList]

/-! ## A change of the directory -/

/-- A change of the directory is a command. -/
theorem isCommand_change (word : String) : IsCommand ("cd " ++ quote word) where
  moves := by
    have name : Cursor.Moves {} ['c', 'd', ' '] ⟨['c', 'd'], .between⟩ :=
      .cons rfl (.cons rfl (Cursor.moves_of_step rfl))
    have target := Cursor.moves_quote (List.cons_ne_nil 'c' ['d']) word
    simpa using name.trans target
  complete connective := by
    have toList_eq : ("cd " ++ quote word).toList =
        'c' :: 'd' :: ' ' :: (quote word).toList := by
      simp
    have firstWord : ("cd " ++ quote word).toList.takeWhile (· ≠ ' ') =
        ['c', 'd'] := by
      rw [toList_eq]
      rfl
    have notReserved : String.ofList ['c', 'd'] ∉ reservedWords := by decide
    rw [complete?, firstWord, if_neg (by simp [notReserved]),
      String.ofList_toList]

/-- A line behind a change of the directory is a list whose first and-or list
starts with that change. -/
theorem list?_change
    {word text : String}
    {first : AndOr}
    {separator : Separator}
    {others : List (AndOr × Separator)}
    (isList : list? text = some ((first, separator) :: others)) :
    list? ("cd " ++ quote word ++ " && " ++ text) =
      some ((first.after ("cd " ++ quote word) .andIf, separator) ::
        others) := by
  obtain ⟨isList, -⟩ := Option.filter_eq_some_iff.mp isList
  obtain ⟨parts, parts_eq, isList⟩ := Option.bind_eq_some_iff.mp isList
  have change_eq : ("cd " ++ quote word ++ " && " ++ text).toList =
      (Part.mk ("cd " ++ quote word) (.link .andIf)).text ++ text.toList := by
    simp [Part.text, Connective.text]
  rw [list?, change_eq, Cursor.parts?_append (isCommand_change word), parts_eq]
  simp [andOrs?, isList]

example : list? "cd '/a b' && c 2>&1 || \"d $X\"; e &" =
    some [(⟨"cd '/a b'", [(.andIf, "c 2>&1"), (.orIf, "\"d $X\"")]⟩, .sequence),
      (⟨"e", []⟩, .background)] := by
  decide

end Shell
end LockBench
