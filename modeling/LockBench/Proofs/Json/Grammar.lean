import LockBench.Proofs.Json.Nesting
import LockBench.Proofs.Json.Numerals

/-!
# The grammar of documents

A document is blank characters, marks, strings and words, one after another, and
its value is the one with these tokens.  A string is written by pieces, which
are characters, names of characters, and codes; what the pieces spell is the
content of the string.
-/

namespace LockBench
namespace Json

/-! ## Strings -/

/-- A character that stands behind a backslash, and the one that it names. -/
inductive IsEscape : Char -> Char -> Prop
  | quote : IsEscape '\x22' '\x22'
  | backslash : IsEscape '\\' '\\'
  | slash : IsEscape '/' '/'
  | backspace : IsEscape 'b' '\x08'
  | formFeed : IsEscape 'f' '\x0c'
  | lineFeed : IsEscape 'n' '\n'
  | carriageReturn : IsEscape 'r' '\r'
  | tab : IsEscape 't' '\t'

theorem escaped?_eq_some_iff
    {c value : Char} :
    escaped? c = some value ↔ IsEscape c value := by
  constructor
  · intro names
    rw [escaped?.eq_def] at names
    split at names <;> cases names <;> constructor
  · intro isEscape
    cases isEscape <;> rfl

/-- A digit of base sixteen, which may be a letter of either case. -/
inductive IsHexDigit : Char -> Nat -> Prop
  | lower
      {value : Nat}
      (small : value < 16) : IsHexDigit value.digitChar value
  | upper
      {value : Nat}
      (small : value < 16) : IsHexDigit value.digitChar.toUpper value

theorem hexValue?_eq_some_iff
    {c : Char}
    {value : Nat} :
    hexValue? c = some value ↔ IsHexDigit c value := by
  constructor
  · intro isValue
    rw [hexValue?] at isValue
    split at isValue
    · rename_i isDigit
      cases isValue
      obtain ⟨small, char_eq⟩ := toNat_of_isDigit isDigit
      have isHex : IsHexDigit (c.toNat - 48).digitChar (c.toNat - 48) :=
        .lower (by omega)
      rwa [char_eq] at isHex
    split at isValue
    · rename_i isLower
      cases isValue
      have bounds : 97 ≤ c.toNat ∧ c.toNat < 103 := by
        simpa [Char.le_def, UInt32.le_iff_toNat_le, Nat.lt_succ_iff] using
          isLower
      have lowers : ∀ n < 103, 97 ≤ n -> (n - 87).digitChar = Char.ofNat n := by
        decide
      have isHex : IsHexDigit (c.toNat - 87).digitChar (c.toNat - 87) :=
        .lower (by omega)
      rwa [lowers _ bounds.2 bounds.1, Char.ofNat_toNat] at isHex
    split at isValue
    · rename_i isUpper
      cases isValue
      have bounds : 65 ≤ c.toNat ∧ c.toNat < 71 := by
        simpa [Char.le_def, UInt32.le_iff_toNat_le, Nat.lt_succ_iff] using
          isUpper
      have uppers : ∀ n < 71, 65 ≤ n ->
          (n - 55).digitChar.toUpper = Char.ofNat n := by
        decide
      have isHex : IsHexDigit (c.toNat - 55).digitChar.toUpper (c.toNat - 55) :=
        .upper (by omega)
      rwa [uppers _ bounds.2 bounds.1, Char.ofNat_toNat] at isHex
    · cases isValue
  · have lowers : ∀ value < 16, hexValue? value.digitChar = some value := by
      decide
    have uppers : ∀ value < 16,
        hexValue? value.digitChar.toUpper = some value := by
      decide
    rintro (small | small)
    · exact lowers value small
    · exact uppers value small

/-- The code of some digits of base sixteen, added to the digits in front. -/
def hexCode
    (front : Nat)
    (values : List Nat) : Nat :=
  values.foldl (fun code value => code * 16 + value) front

/-- Characters are the digits of base sixteen with some values. -/
def AreHex (digits : List Char) (values : List Nat) : Prop :=
  List.Forall₂ IsHexDigit digits values

/-- A piece of a string, and how it is written. -/
inductive Piece.IsWritten : Piece -> List Char -> Prop
  | plain
      {c : Char}
      (noQuote : c ≠ '\x22')
      (noEscape : c ≠ '\\')
      (visible : 0x20 ≤ c.toNat) : IsWritten (.char c) [c]
  | escaped
      {c value : Char}
      (isEscape : IsEscape c value) : IsWritten (.char value) ['\\', c]
  | unit
      {digits : List Char}
      {values : List Nat}
      (areHex : AreHex digits values)
      (areFour : digits.length = 4) :
      IsWritten (.unit (hexCode 0 values)) ('\\' :: 'u' :: digits)

/-- The pieces of a string, and how they are written, one after another. -/
inductive AreWritten : List Piece -> List Char -> Prop
  | nil : AreWritten [] []
  | cons
      {piece : Piece}
      {pieces : List Piece}
      {chars rest : List Char}
      (isWritten : piece.IsWritten chars)
      (areWritten : AreWritten pieces rest) :
      AreWritten (piece :: pieces) (chars ++ rest)

/-- A code is that of the first half of a surrogate pair. -/
def IsHigh (code : Nat) : Prop :=
  0xD800 ≤ code ∧ code ≤ 0xDBFF

/-- A code is that of the second half of a surrogate pair. -/
def IsLow (code : Nat) : Prop :=
  0xDC00 ≤ code ∧ code ≤ 0xDFFF

theorem isHighSurrogate_iff (code : Nat) :
    isHighSurrogate code = true ↔ IsHigh code := by
  simp [isHighSurrogate, IsHigh]

theorem isLowSurrogate_iff (code : Nat) :
    isLowSurrogate code = true ↔ IsLow code := by
  simp [isLowSurrogate, IsLow]

/-- Pieces spell some characters.  Surrogates spell one character in pairs, and
none by themselves. -/
inductive Spells : List Piece -> List Char -> Prop
  | nil : Spells [] []
  | char
      {c : Char}
      {rest : List Piece}
      {chars : List Char}
      (spells : Spells rest chars) : Spells (.char c :: rest) (c :: chars)
  | unit
      {code : Nat}
      {rest : List Piece}
      {chars : List Char}
      (notHigh : ¬IsHigh code)
      (notLow : ¬IsLow code)
      (spells : Spells rest chars) :
      Spells (.unit code :: rest) (Char.ofNat code :: chars)
  | pair
      {high low : Nat}
      {rest : List Piece}
      {chars : List Char}
      (isHigh : IsHigh high)
      (isLow : IsLow low)
      (spells : Spells rest chars) :
      Spells (.unit high :: .unit low :: rest)
        (Char.ofNat (0x10000 + (high - 0xD800) * 0x400 + (low - 0xDC00)) :: chars)

theorem spells_of_decodePieces?
    {pieces : List Piece}
    {chars : List Char}
    (decoded : decodePieces? pieces = some chars) : Spells pieces chars := by
  fun_induction decodePieces? pieces generalizing chars
  case case1 =>
    cases decoded
    exact .nil
  case case2 c rest inductionHypothesis =>
    obtain ⟨others, spelled, rfl⟩ := Option.map_eq_some_iff.mp decoded
    exact .char (inductionHypothesis spelled)
  case case3 high low rest isHigh isLow _ inductionHypothesis =>
    obtain ⟨others, spelled, rfl⟩ := Option.map_eq_some_iff.mp decoded
    exact .pair ((isHighSurrogate_iff _).mp isHigh)
      ((isLowSurrogate_iff _).mp isLow) (inductionHypothesis spelled)
  case case4 => cases decoded
  case case5 => cases decoded
  case case6 code low rest notHigh notLow inductionHypothesis =>
    obtain ⟨others, spelled, rfl⟩ := Option.map_eq_some_iff.mp decoded
    rw [isHighSurrogate_iff] at notHigh
    rw [isLowSurrogate_iff] at notLow
    exact .unit notHigh notLow (inductionHypothesis spelled)
  case case7 => cases decoded
  case case8 code rest _ noSurrogate inductionHypothesis =>
    obtain ⟨others, spelled, rfl⟩ := Option.map_eq_some_iff.mp decoded
    rw [Bool.or_eq_true, isHighSurrogate_iff, isLowSurrogate_iff, not_or]
      at noSurrogate
    exact .unit noSurrogate.1 noSurrogate.2 (inductionHypothesis spelled)

theorem decodePieces?_eq_some_iff
    {pieces : List Piece}
    {chars : List Char} :
    decodePieces? pieces = some chars ↔ Spells pieces chars := by
  refine ⟨spells_of_decodePieces?, fun spells => ?_⟩
  induction spells with
  | nil => rfl
  | char _ inductionHypothesis =>
      rw [decodePieces?, inductionHypothesis]
      rfl
  | unit notHigh notLow _ inductionHypothesis =>
      rw [← isHighSurrogate_iff] at notHigh
      rw [← isLowSurrogate_iff] at notLow
      rw [decodePieces?.eq_def]
      split <;> simp_all
  | pair isHigh isLow _ inductionHypothesis =>
      rw [decodePieces?, if_pos ((isHighSurrogate_iff _).mpr isHigh),
        if_pos ((isLowSurrogate_iff _).mpr isLow), inductionHypothesis]
      rfl

/-- The content of a string: the text that its pieces spell, or none. -/
def IsContent
    (pieces : List Piece)
    (content : Option String) : Prop :=
  ∀ text, content = some text ↔ Spells pieces text.toList

theorem isContent_iff
    {pieces : List Piece}
    {content : Option String} :
    IsContent pieces content ↔
      (decodePieces? pieces).map String.ofList = content := by
  have spells_iff : ∀ text : String,
      (decodePieces? pieces).map String.ofList = some text ↔
        Spells pieces text.toList := by
    intro text
    rw [← decodePieces?_eq_some_iff, Option.map_eq_some_iff]
    constructor
    · rintro ⟨chars, decoded, rfl⟩
      rw [decoded, String.toList_ofList]
    · intro decoded
      exact ⟨_, decoded, String.ofList_toList⟩
  constructor
  · intro isContent
    refine Option.ext fun text => ?_
    rw [spells_iff, isContent]
  · rintro rfl text
    exact spells_iff text

/-! ## Tokens -/

/-- A character that is a token by itself. -/
inductive IsMark : Char -> Token -> Prop
  | beginArray : IsMark '[' .beginArray
  | endArray : IsMark ']' .endArray
  | beginObject : IsMark '\x7b' .beginObject
  | endObject : IsMark '\x7d' .endObject
  | comma : IsMark ',' .comma
  | colon : IsMark ':' .colon

/-- A character that separates tokens. -/
def IsBlank (c : Char) : Prop :=
  c = ' ' ∨ c = '\n' ∨ c = '\t' ∨ c = '\r'

/-- Nothing starts with a character of words. -/
def NoLetter (chars : List Char) : Prop :=
  ∀ c ∈ chars.head?, isWordCharacter c = false

/-- Characters, and the tokens that they are. -/
inductive Lexes : List Char -> List Token -> Prop
  | nil : Lexes [] []
  | blank
      {c : Char}
      {rest : List Char}
      {tokens : List Token}
      (isBlank : IsBlank c)
      (lexes : Lexes rest tokens) : Lexes (c :: rest) tokens
  | mark
      {c : Char}
      {token : Token}
      {rest : List Char}
      {tokens : List Token}
      (isMark : IsMark c token)
      (lexes : Lexes rest tokens) : Lexes (c :: rest) (token :: tokens)
  | text
      {pieces : List Piece}
      {inside rest : List Char}
      {content : Option String}
      {tokens : List Token}
      (areWritten : AreWritten pieces inside)
      (isContent : IsContent pieces content)
      (lexes : Lexes rest tokens) :
      Lexes ('\x22' :: (inside ++ '\x22' :: rest))
        (.scalar (.text content) :: tokens)
  | word
      {letters rest : List Char}
      {value : Value}
      {tokens : List Token}
      (isWord : IsWord letters value)
      (isWhole : NoLetter rest)
      (lexes : Lexes rest tokens) :
      Lexes (letters ++ rest) (.scalar value :: tokens)

end Json
end LockBench
