import LockBench.Json.Value

/-!
# JSON tokens

The characters of a document are cut into tokens by a machine that looks at
one character at a time.  Strings are read with their escapes; every other run
of letters, digits, signs and points is one word, which must be a literal or
a numeral.
-/

namespace LockBench
namespace Json

/-- The tokens of a document. -/
inductive Token
  | beginArray
  | endArray
  | beginObject
  | endObject
  | comma
  | colon
  | scalar (value : Value)
  deriving Repr

/-! ## Strings -/

/-- A piece of a string: a character that stands for itself, or the sixteen
bits that a numeric escape names. -/
inductive Piece
  | char (value : Char)
  | unit (code : Nat)
  deriving DecidableEq, Repr

/-- The first half of a surrogate pair. -/
def isHighSurrogate (code : Nat) : Bool :=
  0xD800 ≤ code && code ≤ 0xDBFF

/-- The second half of a surrogate pair. -/
def isLowSurrogate (code : Nat) : Bool :=
  0xDC00 ≤ code && code ≤ 0xDFFF

/-- The characters that pieces stand for, or `none` at a surrogate without
its other half. -/
def decodePieces? : List Piece -> Option (List Char)
  | [] => some []
  | .char value :: rest => (decodePieces? rest).map (value :: ·)
  | .unit high :: .unit low :: rest =>
    if isHighSurrogate high then
      if isLowSurrogate low then
        let code := 0x10000 + (high - 0xD800) * 0x400 + (low - 0xDC00)
        (decodePieces? rest).map (Char.ofNat code :: ·)
      else none
    else if isLowSurrogate high then none
    else (decodePieces? (.unit low :: rest)).map (Char.ofNat high :: ·)
  | .unit code :: rest =>
    if isHighSurrogate code || isLowSurrogate code then none
    else (decodePieces? rest).map (Char.ofNat code :: ·)

/-- The character that a one-letter escape names. -/
def escaped? : Char -> Option Char
  | '\x22' => some '\x22'
  | '\\' => some '\\'
  | '/' => some '/'
  | 'b' => some '\x08'
  | 'f' => some '\x0c'
  | 'n' => some '\n'
  | 'r' => some '\r'
  | 't' => some '\t'
  | _ => none

/-- The value of a digit of base sixteen. -/
def hexValue? (c : Char) : Option Nat :=
  if c.isDigit then some (c.toNat - 48)
  else if 'a' ≤ c ∧ c ≤ 'f' then some (c.toNat - 87)
  else if 'A' ≤ c ∧ c ≤ 'F' then some (c.toNat - 55)
  else none

/-! ## Words -/

/-- The leading digits of a word as values, and the rest. -/
def takeDigits (chars : List Char) : List Nat × List Char :=
  ((chars.takeWhile Char.isDigit).map fun c => c.toNat - 48,
    chars.dropWhile Char.isDigit)

/-- The digits of an exponent, up to the end of a word. -/
def exponentDigits?
    (negative : Bool)
    (chars : List Char) : Option (Option (Bool × List Nat)) :=
  match takeDigits chars with
  | ([], _) => none
  | (digits, []) => some (some (negative, digits))
  | (_, _ :: _) => none

/-- An exponent at the end of a word, or nothing there. -/
def exponent? : List Char -> Option (Option (Bool × List Nat))
  | [] => some none
  | mark :: rest =>
    if mark = 'e' ∨ mark = 'E' then
      match rest with
      | '+' :: digits => exponentDigits? false digits
      | '-' :: digits => exponentDigits? true digits
      | digits => exponentDigits? false digits
    else none

/-- A word behind its sign as a numeral: no leading zero, and a digit on either
side of a point. -/
def unsigned?
    (negative : Bool)
    (chars : List Char) : Option Numeral :=
  match takeDigits chars with
  | ([], _) => none
  | (0 :: _ :: _, _) => none
  | (whole, '.' :: afterPoint) =>
    match takeDigits afterPoint with
    | ([], _) => none
    | (fraction, rest) =>
      (exponent? rest).map fun exponent =>
        ⟨negative, whole, some fraction, exponent⟩
  | (whole, rest) =>
    (exponent? rest).map fun exponent => ⟨negative, whole, none, exponent⟩

/-- A word as a numeral. -/
def numeral? : List Char -> Option Numeral
  | '-' :: rest => unsigned? true rest
  | chars => unsigned? false chars

/-- The value of a word. -/
def word? (chars : List Char) : Option Value :=
  if chars = "null".toList then some .null
  else if chars = "true".toList then some (.boolean true)
  else if chars = "false".toList then some (.boolean false)
  else (numeral? chars).map .number

/-- Characters that words are made of. -/
def isWordCharacter (c : Char) : Bool :=
  c.isAlphanum || c = '+' || c = '-' || c = '.'

/-! ## The machine -/

/-- Where the machine stands.  Pieces and letters are kept in reverse. -/
inductive Mode
  /-- Between tokens. -/
  | between
  /-- Inside a word. -/
  | word (letters : List Char)
  /-- Inside a string. -/
  | text (pieces : List Piece)
  /-- After a backslash in a string. -/
  | escape (pieces : List Piece)
  /-- Inside a numeric escape: digits still to come, and the value so far. -/
  | hex (pieces : List Piece) (missing : Nat) (value : Nat)
  deriving Repr

/-- The token or the mode that a character outside of words and strings
starts. -/
def start? (c : Char) : Option (List Token × Mode) :=
  if c = ' ' ∨ c = '\n' ∨ c = '\t' ∨ c = '\r' then some ([], .between)
  else if c = '[' then some ([.beginArray], .between)
  else if c = ']' then some ([.endArray], .between)
  else if c = '\x7b' then some ([.beginObject], .between)
  else if c = '\x7d' then some ([.endObject], .between)
  else if c = ',' then some ([.comma], .between)
  else if c = ':' then some ([.colon], .between)
  else if c = '\x22' then some ([], .text [])
  else if isWordCharacter c then some ([], .word [c])
  else none

/-- One character: the tokens that it ends and the mode after it. -/
def Mode.step? : Mode -> Char -> Option (List Token × Mode)
  | .between, c => start? c
  | .word letters, c =>
    if isWordCharacter c then some ([], .word (c :: letters))
    else
      match word? letters.reverse, start? c with
      | some value, some (tokens, mode) =>
        some (.scalar value :: tokens, mode)
      | _, _ => none
  | .text pieces, c =>
    if c = '\x22' then
      let chars := decodePieces? pieces.reverse
      some ([.scalar (.text (chars.map String.ofList))], .between)
    else if c = '\\' then some ([], .escape pieces)
    else if c.toNat < 0x20 then none
    else some ([], .text (.char c :: pieces))
  | .escape pieces, c =>
    if c = 'u' then some ([], .hex pieces 3 0)
    else (escaped? c).map fun value => ([], .text (.char value :: pieces))
  | .hex pieces missing value, c =>
    (hexValue? c).map fun digit =>
      match missing with
      | 0 => ([], .text (.unit (value * 16 + digit) :: pieces))
      | missing + 1 => ([], .hex pieces missing (value * 16 + digit))

/-- The tokens that the end of the document ends. -/
def Mode.finish? : Mode -> Option (List Token)
  | .between => some []
  | .word letters => (word? letters.reverse).map fun value => [.scalar value]
  | _ => none

/-- The tokens of some characters, read from a mode. -/
def tokensFrom? (mode : Mode) : List Char -> Option (List Token)
  | [] => mode.finish?
  | c :: rest =>
    match mode.step? c with
    | none => none
    | some (tokens, next) => (tokensFrom? next rest).map (tokens ++ ·)

end Json
end LockBench
