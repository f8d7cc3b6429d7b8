import LockBench.Toml.Value

/-!
# TOML scalars

What is not a string, an array or a table is one word: a boolean, an integer,
a floating-point number, or a moment.  Its form alone decides here; whether a
number is too large to be represented shows when it is used.
-/

namespace LockBench
namespace Toml

/-! ## Digits -/

/-- Digits with single underscores between them, without the underscores. -/
def digits?
    (isDigit : Char -> Bool) : List Char -> Option (List Char)
  | [] => none
  | [c] => if isDigit c then some [c] else none
  | c :: '_' :: rest =>
    if isDigit c then (digits? isDigit rest).map (c :: ·) else none
  | c :: rest =>
    if isDigit c then (digits? isDigit rest).map (c :: ·) else none

/-- The value of digits in a base, letters counting from ten. -/
def valueIn
    (base : Nat)
    (digits : List Char) : Nat :=
  digits.foldl
    (fun value c =>
      value * base +
        (if c.isDigit then c.toNat - 48 else c.toLower.toNat - 87)) 0

/-- A sign at the front, as whether it is a minus, and the rest. -/
def splitSign : List Char -> Bool × List Char
  | '+' :: rest => (false, rest)
  | '-' :: rest => (true, rest)
  | chars => (false, chars)

/-! ## Numbers -/

/-- Decimal digits of a whole number, without a leading zero. -/
def wholeDigits? (chars : List Char) : Option (List Char) :=
  match chars with
  | '0' :: _ :: _ => none
  | _ => digits? Char.isDigit chars

/-- A magnitude written in base sixteen, eight or two. -/
def basedMagnitude? : List Char -> Option Nat
  | '0' :: 'x' :: rest =>
    (digits? (fun c => c.isDigit ||
      ('a' ≤ c && c ≤ 'f') || ('A' ≤ c && c ≤ 'F')) rest).map (valueIn 16)
  | '0' :: 'o' :: rest =>
    (digits? (fun c => '0' ≤ c && c ≤ '7') rest).map (valueIn 8)
  | '0' :: 'b' :: rest =>
    (digits? (fun c => c = '0' || c = '1') rest).map (valueIn 2)
  | _ => none

/-- An integer. -/
def integer? (word : List Char) : Option Int :=
  match basedMagnitude? word with
  | some magnitude => some magnitude
  | none =>
    let (negative, unsigned) := splitSign word
    (wholeDigits? unsigned).map fun digits =>
      let magnitude : Int := valueIn 10 digits
      if negative then -magnitude else magnitude

/-- A decimal number by its digits and the power of ten of the last one. -/
structure Scientific where
  /-- The digits, without the point. -/
  digits : List Char
  /-- The power of ten that they are multiplied by. -/
  power : Int

/-- An exponent, from after its letter. -/
def exponent? (chars : List Char) : Option Int :=
  let (negative, unsigned) := splitSign chars
  (digits? Char.isDigit unsigned).map fun digits =>
    let magnitude : Int := valueIn 10 digits
    if negative then -magnitude else magnitude

/-- The digits of a number other than infinity and what is not a number. -/
def scientific? (word : List Char) : Option Scientific := do
  let (_, unsigned) := splitSign word
  let isExponentMark (c : Char) : Bool := c = 'e' || c = 'E'
  let mantissa := unsigned.takeWhile fun c => !isExponentMark c
  let exponentPart := unsigned.dropWhile fun c => !isExponentMark c
  let whole ← wholeDigits? (mantissa.takeWhile (· ≠ '.'))
  let fraction ← match mantissa.dropWhile (· ≠ '.') with
    | [] => some []
    | _ :: digits => digits? Char.isDigit digits
  let exponent ← match exponentPart with
    | [] => some 0
    | _ :: rest => exponent? rest
  return ⟨whole ++ fraction, exponent - fraction.length⟩

/-- Whether a word is infinity or what is not a number. -/
def isSpecialFloat (word : List Char) : Bool :=
  let unsigned := (splitSign word).2
  unsigned = "inf".toList ∨ unsigned = "nan".toList

/-! ## Moments -/

/-- A number of a fixed count of decimal digits, and the rest. -/
def fixedDigits?
    (count : Nat)
    (chars : List Char) : Option (Nat × List Char) :=
  let front := chars.take count
  if front.length = count ∧ front.all Char.isDigit then
    some (valueIn 10 front, chars.drop count)
  else none

/-- The number of days of a month. -/
def daysOf
    (year month : Nat) : Nat :=
  let leap := year % 4 = 0 ∧ (year % 100 ≠ 0 ∨ year % 400 = 0)
  if month = 2 then if leap then 29 else 28
  else if month ∈ [4, 6, 9, 11] then 30
  else 31

/-- The characters after a date. -/
def date? (chars : List Char) : Option (List Char) := do
  let (year, rest) ← fixedDigits? 4 chars
  match rest with
  | '-' :: rest => do
    let (month, rest) ← fixedDigits? 2 rest
    match rest with
    | '-' :: rest => do
      let (day, rest) ← fixedDigits? 2 rest
      if 1 ≤ month ∧ month ≤ 12 ∧ 1 ≤ day ∧ day ≤ daysOf year month then
        return rest
      else none
    | _ => none
  | _ => none

/-- The characters after the seconds of a time and their fraction, where a
time has them. -/
def seconds? : List Char -> Option (List Char)
  | ':' :: rest => do
    let (second, rest) ← fixedDigits? 2 rest
    if second ≤ 60 then
      match rest with
      | '.' :: fraction =>
        match fraction.takeWhile Char.isDigit with
        | [] => none
        | _ => return fraction.dropWhile Char.isDigit
      | _ => return rest
    else none
  | rest => some rest

/-- The characters after a time of day. -/
def time? (chars : List Char) : Option (List Char) := do
  let (hour, rest) ← fixedDigits? 2 chars
  match rest with
  | ':' :: rest => do
    let (minute, rest) ← fixedDigits? 2 rest
    if hour ≤ 23 ∧ minute ≤ 59 then seconds? rest else none
  | _ => none

/-- The characters after an offset, if there is a valid one. -/
def offset? : List Char -> Option (List Char)
  | 'Z' :: rest => some rest
  | 'z' :: rest => some rest
  | sign :: rest =>
    if sign = '+' ∨ sign = '-' then do
      let (hour, rest) ← fixedDigits? 2 rest
      match rest with
      | ':' :: rest => do
        let (minute, rest) ← fixedDigits? 2 rest
        if hour ≤ 23 ∧ minute ≤ 59 then return rest else none
      | _ => none
    else none
  | [] => none

/-- The kind of moment that a word is, if it is one. -/
def moment? (word : List Char) : Option Moment :=
  match date? word with
  | some [] => some .localDate
  | some (delimiter :: afterDate) =>
    if delimiter = 'T' ∨ delimiter = 't' ∨ delimiter = ' ' then
      match time? afterDate with
      | some [] => some .localDateTime
      | some afterTime =>
        if offset? afterTime = some [] then some .offsetDateTime else none
      | none => none
    else none
  | none => if time? word = some [] then some .localTime else none

/-! ## Words -/

/-- A character that a word of a scalar may hold. -/
def isScalarCharacter (c : Char) : Bool :=
  c.isAlphanum || c = '+' || c = '-' || c = '.' || c = '_' || c = ':'

/-- The value of a word. -/
def scalarValue? (word : List Char) : Option Value :=
  if word = "true".toList then some (.boolean true)
  else if word = "false".toList then some (.boolean false)
  else
    match integer? word, moment? word with
    | some value, _ => some (.integer value)
    | none, some kind => some (.moment kind (String.ofList word))
    | none, none =>
      if isSpecialFloat word ∨ (scientific? word).isSome then
        some (.float (String.ofList word))
      else none

/-- The word at the front; a date and a time with a space between them are
one word. -/
def scalarWord (chars : List Char) : List Char × List Char :=
  let word := chars.takeWhile isScalarCharacter
  let rest := chars.dropWhile isScalarCharacter
  match rest with
  | ' ' :: digit :: further =>
    if date? word = some [] ∧ digit.isDigit then
      (word ++ ' ' :: (digit :: further).takeWhile isScalarCharacter,
        (digit :: further).dropWhile isScalarCharacter)
    else (word, rest)
  | _ => (word, rest)

end Toml
end LockBench
