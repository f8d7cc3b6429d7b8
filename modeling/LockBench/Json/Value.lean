/-!
# JSON values

Numerals keep their digits, so that a reader of a value decides how to round
them.  A text is `none` when its escapes name a surrogate that is not part of
a pair: such a text is well formed, but it is no sequence of characters.
-/

namespace LockBench
namespace Json

/-- A numeral by its parts.  Digits are values below ten, most significant
first. -/
structure Numeral where
  /-- Whether it starts with a minus sign. -/
  negative : Bool
  /-- Digits before the point. -/
  whole : List Nat
  /-- Digits after the point, if there is one. -/
  fraction : Option (List Nat)
  /-- Whether the exponent is negative, and its digits, if there is one. -/
  exponent : Option (Bool × List Nat)
  deriving DecidableEq, Repr

/-- A JSON value. -/
inductive Value
  | null
  | boolean (value : Bool)
  | number (numeral : Numeral)
  | text (value : Option String)
  | array (items : List Value)
  | object (entries : List (Option String × Value))
  deriving Repr, Inhabited

end Json
end LockBench
