import LockBench.Shell.Quote

/-!
# How a POSIX shell cuts a line into tokens

The reader is a machine on single characters.  It knows the three ways of
quoting, comments, and the operators, each taken as long as it can be.  It
reads only lines that mean what they say: a character that may call for an
expansion where no quote protects it, a continued line, and a quote that is
never closed are refused.
-/

namespace LockBench
namespace Shell

/-- A character of a word, and whether a quote took away its meaning. -/
structure Letter where
  /-- The character. -/
  char : Char
  /-- Whether it was quoted. -/
  quoted : Bool
  deriving DecidableEq, Repr

/-- What a line is cut into. -/
inductive Token
  | word (letters : List Letter)
  | operator (marks : List Char)
  deriving DecidableEq, Repr

/-- The operator that runs what follows it if what precedes it succeeded. -/
def Token.andIf : Token := .operator ['&', '&']

/-! ## Classes of characters -/

/-- Characters that separate tokens and belong to none. -/
def isBlank (c : Char) : Bool :=
  [' ', '\t'].contains c

/-- Characters that operators are made of. -/
def isMark (c : Char) : Bool :=
  ['&', '|', ';', '<', '>', '(', ')', '\n'].contains c

/-- The operators of more than one character. -/
def longOperators : List (List Char) :=
  [['&', '&'], ['|', '|'], [';', ';'], ['<', '<'], ['>', '>'], ['<', '&'],
    ['>', '&'], ['<', '>'], ['>', '|'], ['<', '<', '-']]

/-- Characters that call for an expansion inside double quotes too. -/
def isExpanding (c : Char) : Bool :=
  ['$', '\x60'].contains c

/-- Characters that may call for an expansion outside of quotes: of
parameters and commands, of file names, home directories and braces, and of
the history. -/
def isActive (c : Char) : Bool :=
  isExpanding c || ['*', '?', '[', '~', '{', '}', '!'].contains c

/-- Characters that a backslash protects inside double quotes. -/
def isProtected (c : Char) : Bool :=
  isExpanding c || ['\x22', '\\'].contains c

/-! ## The machine -/

/-- What surrounds the next character of a word. -/
inductive Mode
  | bare
  /-- After a backslash outside of quotes. -/
  | escaped
  | single
  | double
  /-- After a backslash inside double quotes. -/
  | doubleEscaped
  deriving DecidableEq, Repr

/-- The token that is not yet complete. -/
inductive Pending
  | nothing
  | comment
  | operator (marks : List Char)
  | word (letters : List Letter) (mode : Mode)
  deriving DecidableEq, Repr

/-- The state of the reader. -/
structure Reading where
  /-- The tokens that are complete. -/
  tokens : List Token := []
  /-- The token that is not. -/
  pending : Pending := .nothing
  deriving DecidableEq, Repr

namespace Reading

/-- Go on with a word by a character that no quote surrounds. -/
def extend
    (tokens : List Token)
    (letters : List Letter)
    (c : Char) : Option Reading :=
  if c = '\x27' then some ⟨tokens, .word letters .single⟩
  else if c = '\x22' then some ⟨tokens, .word letters .double⟩
  else if c = '\\' then some ⟨tokens, .word letters .escaped⟩
  else if isActive c then none
  else some ⟨tokens, .word (letters ++ [⟨c, false⟩]) .bare⟩

/-- Go on after complete tokens. -/
def start
    (tokens : List Token)
    (c : Char) : Option Reading :=
  if isBlank c then some ⟨tokens, .nothing⟩
  else if isMark c then some ⟨tokens, .operator [c]⟩
  else if c = '#' then some ⟨tokens, .comment⟩
  else extend tokens [] c

/-- Read one character. -/
def step (reading : Reading) (c : Char) : Option Reading :=
  match reading.pending with
  | .nothing => start reading.tokens c
  | .comment => if c = '\n' then start reading.tokens c else some reading
  | .operator marks =>
    if longOperators.contains (marks ++ [c]) then
      some ⟨reading.tokens, .operator (marks ++ [c])⟩
    else start (reading.tokens ++ [.operator marks]) c
  | .word letters .bare =>
    if isBlank c || isMark c then
      start (reading.tokens ++ [.word letters]) c
    else extend reading.tokens letters c
  | .word letters .escaped =>
    if c = '\n' then none
    else some ⟨reading.tokens, .word (letters ++ [⟨c, true⟩]) .bare⟩
  | .word letters .single =>
    if c = '\x27' then some ⟨reading.tokens, .word letters .bare⟩
    else some ⟨reading.tokens, .word (letters ++ [⟨c, true⟩]) .single⟩
  | .word letters .double =>
    if c = '\x22' then some ⟨reading.tokens, .word letters .bare⟩
    else if c = '\\' then
      some ⟨reading.tokens, .word letters .doubleEscaped⟩
    else if isExpanding c then none
    else some ⟨reading.tokens, .word (letters ++ [⟨c, true⟩]) .double⟩
  | .word letters .doubleEscaped =>
    if c = '\n' then none
    else if isProtected c then
      some ⟨reading.tokens, .word (letters ++ [⟨c, true⟩]) .double⟩
    else
      some ⟨reading.tokens,
        .word (letters ++ [⟨'\\', true⟩, ⟨c, true⟩]) .double⟩

/-- Read some characters. -/
def feed (reading : Reading) (text : List Char) : Option Reading :=
  text.foldlM step reading

@[simp] theorem feed_nil (reading : Reading) :
    reading.feed [] = some reading := rfl

@[simp] theorem feed_cons
    (reading : Reading)
    (c : Char)
    (text : List Char) :
    reading.feed (c :: text) =
      (reading.step c).bind fun next => next.feed text := rfl

/-- Reading goes on where it stopped. -/
theorem feed_append
    (reading : Reading)
    (left right : List Char) :
    reading.feed (left ++ right) =
      (reading.feed left).bind fun middle => middle.feed right := by
  simp [feed]

/-- The tokens at the end of a line. -/
def finish : Reading -> Option (List Token)
  | ⟨tokens, .nothing⟩ => some tokens
  | ⟨tokens, .comment⟩ => some tokens
  | ⟨tokens, .operator marks⟩ => some (tokens ++ [.operator marks])
  | ⟨tokens, .word letters .bare⟩ => some (tokens ++ [.word letters])
  | ⟨_, .word _ _⟩ => none

end Reading

/-- The tokens of a line, if it means what it says. -/
def tokens? (line : String) : Option (List Token) :=
  (Reading.feed {} line.toList).bind Reading.finish

/-! ## Texts that end in a word -/

/-- A text reads as some tokens, the last of them a word that is still open at
its end, wherever a token may start. -/
def Reads
    (text : List Char)
    (tokens : List Token) : Prop :=
  ∃ earlier letters, tokens = earlier ++ [.word letters] ∧
    ∀ before : List Token, Reading.feed ⟨before, .nothing⟩ text =
      some ⟨before ++ earlier, .word letters .bare⟩

/-- At the end of the line the open word is complete. -/
theorem Reads.tokens?_eq
    {text : List Char}
    {tokens : List Token}
    (reads : Reads text tokens) :
    tokens? (String.ofList text) = some tokens := by
  obtain ⟨earlier, letters, rfl, fed⟩ := reads
  simp [tokens?, fed, Reading.finish]

/-- A blank ends a word and starts nothing. -/
theorem Reads.blank
    {left right : List Char}
    {leftTokens rightTokens : List Token}
    (readsLeft : Reads left leftTokens)
    (readsRight : Reads right rightTokens) :
    Reads (left ++ ' ' :: right) (leftTokens ++ rightTokens) := by
  obtain ⟨earlier, letters, rfl, fedLeft⟩ := readsLeft
  obtain ⟨middle, last, rfl, fedRight⟩ := readsRight
  refine ⟨earlier ++ [.word letters] ++ middle, last, by simp, ?_⟩
  intro before
  have ends : Reading.step ⟨before ++ earlier, .word letters .bare⟩ ' ' =
      some ⟨before ++ earlier ++ [.word letters], .nothing⟩ := rfl
  rw [Reading.feed_append, fedLeft, Option.bind_some, Reading.feed_cons, ends,
    Option.bind_some, fedRight]
  simp

/-- Two ampersands between blanks are one operator. -/
theorem Reads.andIf
    {left right : List Char}
    {leftTokens rightTokens : List Token}
    (readsLeft : Reads left leftTokens)
    (readsRight : Reads right rightTokens) :
    Reads (left ++ [' ', '&', '&', ' '] ++ right)
      (leftTokens ++ .andIf :: rightTokens) := by
  obtain ⟨earlier, letters, rfl, fedLeft⟩ := readsLeft
  obtain ⟨middle, last, rfl, fedRight⟩ := readsRight
  refine ⟨earlier ++ [.word letters, .andIf] ++ middle, last, by simp, ?_⟩
  intro before
  have ends : Reading.feed ⟨before ++ earlier, .word letters .bare⟩
        [' ', '&', '&', ' '] =
      some ⟨before ++ earlier ++ [.word letters] ++ [.andIf], .nothing⟩ := rfl
  rw [Reading.feed_append, Reading.feed_append, fedLeft, Option.bind_some,
    ends, Option.bind_some, fedRight]
  simp

/-- Words with blanks between them read one after another. -/
theorem Reads.intercalate
    {items : List α}
    {text : α -> List Char}
    {letters : α -> List Letter}
    (someItem : items ≠ [])
    (reads : ∀ item ∈ items, Reads (text item) [.word (letters item)]) :
    Reads ([' '].intercalate (items.map text))
      (items.map fun item => .word (letters item)) := by
  induction items with
  | nil => exact absurd rfl someItem
  | cons item rest inductionHypothesis =>
      have readsItem := reads item (List.mem_cons_self ..)
      cases rest with
      | nil => simpa using readsItem
      | cons next others =>
          have readsRest := inductionHypothesis (by simp) fun other member =>
            reads other (List.mem_cons_of_mem _ member)
          simpa [List.intercalate] using readsItem.blank readsRest

end Shell
end LockBench
