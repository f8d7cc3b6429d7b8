import LockBench.Toml.Table

/-!
# The grammar of TOML 1.0

Each production relates the characters before it, what it stands for, and the
characters that are left after it.  The productions are those of documents
without comments whose keys are bare and whose values are strings, counts and
arrays of these.  A production takes as much or as little as its rule permits;
what may follow it decides.
-/

namespace LockBench
namespace Toml
namespace Grammar

/-! ## Separators -/

/-- `ws`: spaces and tabs. -/
inductive Spaces : List Char -> List Char -> Prop
  | none (rest : List Char) : Spaces rest rest
  | more
      {c : Char}
      {before after : List Char}
      (isSpace : c = ' ' ∨ c = '\t')
      (spaces : Spaces before after) :
      Spaces (c :: before) after

/-- `newline`: a line feed, or a carriage return and a line feed. -/
inductive LineEnd : List Char -> List Char -> List Char -> Prop
  | lineFeed (rest : List Char) : LineEnd ('\n' :: rest) ['\n'] rest
  | carriageReturn (rest : List Char) :
      LineEnd ('\r' :: '\n' :: rest) ['\r', '\n'] rest

/-- What may stand between the tokens of an array: spaces, tabs and line
ends. -/
inductive Breaks : List Char -> List Char -> Prop
  | none (rest : List Char) : Breaks rest rest
  | space
      {c : Char}
      {before after : List Char}
      (isSpace : c = ' ' ∨ c = '\t')
      (breaks : Breaks before after) :
      Breaks (c :: before) after
  | lineEnd
      {before text middle after : List Char}
      (ends : LineEnd before text middle)
      (breaks : Breaks middle after) :
      Breaks before after

/-! ## Strings -/

/-- A character that may stand in a text: a tab, or one that is no control
character. -/
def IsText (c : Char) : Prop :=
  c = '\t' ∨ 0x20 ≤ c.toNat ∧ c.toNat ≠ 0x7F

/-- `HEXDIG` with its value: a digit, or a letter of either case. -/
def IsHex
    (c : Char)
    (value : Nat) : Prop :=
  value < 10 ∧ c.toNat = 0x30 + value ∨
    10 ≤ value ∧ value < 16 ∧
      (c.toNat = 0x37 + value ∨ c.toNat = 0x57 + value)

/-- Digits of base sixteen with their number, given the number of those
before. -/
inductive Hex : Nat -> List Char -> Nat -> Prop
  | nil (value : Nat) : Hex value [] value
  | cons
      {c : Char}
      {digits : List Char}
      {before digit value : Nat}
      (isHex : IsHex c digit)
      (rest : Hex (before * 16 + digit) digits value) :
      Hex before (c :: digits) value

/-- The escapes of one letter, each with the character that it names. -/
def letterEscapes : List (Char × Char) :=
  [('\x22', '\x22'), ('\\', '\\'), ('b', '\x08'), ('f', '\x0c'), ('n', '\n'),
    ('r', '\r'), ('t', '\t')]

/-- The escapes by number, each with its count of digits. -/
def numberEscapes : List (Char × Nat) :=
  [('u', 4), ('U', 8)]

/-- `escape-seq-char` and the character that it names. -/
inductive Escape : List Char -> Char -> List Char -> Prop
  | letter
      {letter c : Char}
      (isEscape : (letter, c) ∈ letterEscapes)
      (rest : List Char) :
      Escape (letter :: rest) c rest
  | number
      {mark c : Char}
      {count : Nat}
      {digits : List Char}
      (isEscape : (mark, count) ∈ numberEscapes)
      (counted : digits.length = count)
      (isNumber : Hex 0 digits c.toNat)
      (rest : List Char) :
      Escape (mark :: (digits ++ rest)) c rest

/-- `basic-char`: a character of a text, or an escape. -/
inductive BasicPiece : List Char -> List Char -> List Char -> Prop
  | plain
      {c : Char}
      (isText : IsText c)
      (noMark : c ≠ '\x22')
      (noEscape : c ≠ '\\')
      (rest : List Char) :
      BasicPiece (c :: rest) [c] rest
  | escaped
      {c : Char}
      {before after : List Char}
      (escape : Escape before c after) :
      BasicPiece ('\\' :: before) [c] after

/-- `literal-char`: any character of a text but the delimiter. -/
inductive LiteralPiece : List Char -> List Char -> List Char -> Prop
  | plain
      {c : Char}
      (isText : IsText c)
      (noMark : c ≠ '\x27')
      (rest : List Char) :
      LiteralPiece (c :: rest) [c] rest

/-- The rest of a string on one line, from its first piece. -/
inductive Line
    (mark : Char)
    (Piece : List Char -> List Char -> List Char -> Prop) :
    List Char -> List Char -> List Char -> Prop
  | close (rest : List Char) : Line mark Piece (mark :: rest) [] rest
  | piece
      {before text middle others after : List Char}
      (first : Piece before text middle)
      (rest : Line mark Piece middle others after) :
      Line mark Piece before (text ++ others) after

/-- The rest of a string on several lines, given the number of delimiters
right before.  Up to two of them in a row belong to the text. -/
inductive Lines
    (mark : Char)
    (Piece : List Char -> List Char -> List Char -> Prop) :
    Nat -> List Char -> List Char -> List Char -> Prop
  | close
      (marks : Nat)
      (rest : List Char) :
      Lines mark Piece marks (mark :: mark :: mark :: rest) [] rest
  | mark
      {marks : Nat}
      {before text after : List Char}
      (few : marks < 2)
      (rest : Lines mark Piece (marks + 1) before text after) :
      Lines mark Piece marks (mark :: before) (mark :: text) after
  | piece
      {marks : Nat}
      {before text middle others after : List Char}
      (first : Piece before text middle)
      (rest : Lines mark Piece 0 middle others after) :
      Lines mark Piece marks before (text ++ others) after
  | lineEnd
      {marks : Nat}
      {before text middle others after : List Char}
      (ends : LineEnd before text middle)
      (rest : Lines mark Piece 0 middle others after) :
      Lines mark Piece marks before (text ++ others) after

/-- A line end right after the delimiter that opens a string on several lines
does not belong to the text. -/
inductive Opened : List Char -> List Char -> Prop
  | trimmed
      {before text after : List Char}
      (ends : LineEnd before text after) :
      Opened before after
  | plain
      {before : List Char}
      (noEnd : ∀ text after, ¬LineEnd before text after) :
      Opened before before

/-- `string`, in its four styles. -/
inductive Text : List Char -> List Char -> List Char -> Prop
  | basic
      {before text after : List Char}
      (line : Line '\x22' BasicPiece before text after) :
      Text ('\x22' :: before) text after
  | literal
      {before text after : List Char}
      (line : Line '\x27' LiteralPiece before text after) :
      Text ('\x27' :: before) text after
  | multilineBasic
      {before body text after : List Char}
      (opened : Opened before body)
      (lines : Lines '\x22' BasicPiece 0 body text after) :
      Text ('\x22' :: '\x22' :: '\x22' :: before) text after
  | multilineLiteral
      {before body text after : List Char}
      (opened : Opened before body)
      (lines : Lines '\x27' LiteralPiece 0 body text after) :
      Text ('\x27' :: '\x27' :: '\x27' :: before) text after

/-! ## Values -/

/-- `unsigned-dec-int`: digits without a zero before others. -/
inductive Count : List Char -> Nat -> List Char -> Prop
  | digits
      {digits : List Char}
      (someDigit : digits ≠ [])
      (areDigits : ∀ c ∈ digits, c.isDigit = true)
      (noZero : digits = ['0'] ∨ digits.head? ≠ some '0')
      (rest : List Char) :
      Count (digits ++ rest) (Nat.ofDigitChars 10 digits 0) rest

/-- A string or a count. -/
inductive Scalar : List Char -> Value -> List Char -> Prop
  | text
      {before text after : List Char}
      (written : Text before text after) :
      Scalar before (.text (String.ofList text)) after
  | integer
      {before after : List Char}
      {value : Nat}
      (written : Count before value after) :
      Scalar before (.integer value) after

/-- The rest of an array, from after its bracket.  A comma may follow the last
item. -/
inductive Items : List Char -> List Value -> List Char -> Prop
  | close
      {before after : List Char}
      (breaks : Breaks before (']' :: after)) :
      Items before [] after
  | last
      {before start stop after : List Char}
      {value : Value}
      (breaks : Breaks before start)
      (item : Scalar start value stop)
      (closing : Breaks stop (']' :: after)) :
      Items before [value] after
  | item
      {before start stop next after : List Char}
      {value : Value}
      {values : List Value}
      (breaks : Breaks before start)
      (item : Scalar start value stop)
      (comma : Breaks stop (',' :: next))
      (rest : Items next values after) :
      Items before (value :: values) after

/-- `val`: a scalar, or an array of scalars. -/
inductive Val : List Char -> Value -> List Char -> Prop
  | scalar
      {before after : List Char}
      {value : Value}
      (written : Scalar before value after) :
      Val before value after
  | array
      {before after : List Char}
      {values : List Value}
      (items : Items before values after) :
      Val ('[' :: before) (.array values) after

/-! ## Documents -/

/-- A character of a bare key: a letter, a digit, a dash or an underscore. -/
def IsKeyCharacter (c : Char) : Prop :=
  c.isAlphanum = true ∨ c = '-' ∨ c = '_'

/-- `unquoted-key`. -/
inductive Key : List Char -> String -> List Char -> Prop
  | bare
      {name : List Char}
      (someCharacter : name ≠ [])
      (areBare : ∀ c ∈ name, IsKeyCharacter c)
      (rest : List Char) :
      Key (name ++ rest) (String.ofList name) rest

/-- `keyval` and `std-table`. -/
inductive Stated : List Char -> Statement -> List Char -> Prop
  | assign
      {before afterKey afterSign start after : List Char}
      {name : String}
      {value : Value}
      (key : Key before name afterKey)
      (sign : Spaces afterKey ('=' :: afterSign))
      (spaces : Spaces afterSign start)
      (written : Val start value after) :
      Stated before (.assign [name] value) after
  | table
      {before start afterKey after : List Char}
      {name : String}
      (spaces : Spaces before start)
      (key : Key start name afterKey)
      (closing : Spaces afterKey (']' :: after)) :
      Stated ('[' :: before) (.table [name]) after

/-- `expression`: a statement or nothing, between spaces. -/
inductive Expression : List Char -> Option Statement -> List Char -> Prop
  | blank
      {before after : List Char}
      (spaces : Spaces before after) :
      Expression before none after
  | stated
      {before start stop after : List Char}
      {statement : Statement}
      (spaces : Spaces before start)
      (stated : Stated start statement stop)
      (others : Spaces stop after) :
      Expression before (some statement) after

/-- `toml`: expressions with line ends between them. -/
inductive Document : List Char -> List Statement -> Prop
  | last
      {before : List Char}
      {statement : Option Statement}
      (expression : Expression before statement []) :
      Document before statement.toList
  | more
      {before middle text after : List Char}
      {statement : Option Statement}
      {statements : List Statement}
      (expression : Expression before statement middle)
      (ends : LineEnd middle text after)
      (rest : Document after statements) :
      Document before (statement.toList ++ statements)

/-- A document with some entries: its statements can be carried out, and they
make these entries. -/
def Holds
    (document : String)
    (entries : Entries) : Prop :=
  ∃ statements, Document document.toList statements ∧
    entriesOf? statements = some entries

end Grammar
end Toml
end LockBench
