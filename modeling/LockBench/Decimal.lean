/-!
# Decimal text of a double

A finite double is a fraction whose denominator is a power of two.  Its text
with a fixed number of places is the exact value rounded to that grid; a tie
goes to the even neighbour.
-/

namespace LockBench
namespace Decimal

/-- A finite double in exact terms: its sign, and its magnitude as
`significand * 2 ^ up / 2 ^ down`. -/
structure Exact where
  /-- Whether the sign bit is set. -/
  negative : Bool
  /-- The integer significand. -/
  significand : Nat
  /-- Exponent of the power of two that multiplies. -/
  up : Nat
  /-- Exponent of the power of two that divides. -/
  down : Nat

/-- What the bits of a double stand for. -/
inductive Reading
  | finite (value : Exact)
  | infinite (negative : Bool)
  | notANumber

/-- Read the sign, exponent and significand fields of a double. -/
def read (value : Float) : Reading :=
  let bits := value.toBits.toNat
  let negative := bits / Nat.pow 2 63 = 1
  let exponent := bits / Nat.pow 2 52 % Nat.pow 2 11
  let fraction := bits % Nat.pow 2 52
  if exponent = 2047 then
    if fraction = 0 then .infinite negative else .notANumber
  else if exponent = 0 then
    .finite ⟨negative, fraction, 0, 1074⟩
  else
    .finite
      ⟨negative, Nat.pow 2 52 + fraction, exponent - 1075, 1075 - exponent⟩

/-- The quotient rounded to the nearest integer, ties to even. -/
def roundDiv
    (numerator denominator : Nat) : Nat :=
  let quotient := numerator / denominator
  let twice := 2 * (numerator % denominator)
  if twice < denominator then quotient
  else if denominator < twice then quotient + 1
  else quotient + quotient % 2

/-- Digits of a count of units of the last place, with the point set. -/
def pointed
    (places units : Nat) : String :=
  let unit := Nat.pow 10 places
  let fraction := toString (units % unit)
  toString (units / unit) ++ "." ++
    String.ofList (List.replicate (places - fraction.length) '0') ++ fraction

/-- A double with a fixed positive number of decimal places.  The sign of a
negative zero is kept; what is not a number has no sign. -/
def fixed
    (places : Nat)
    (value : Float) : String :=
  match read value with
  | .notANumber => "NaN"
  | .infinite negative => if negative then "-inf" else "inf"
  | .finite exact =>
    let units := roundDiv
      (exact.significand * Nat.pow 2 exact.up * Nat.pow 10 places)
      (Nat.pow 2 exact.down)
    (if exact.negative then "-" else "") ++ pointed places units

/-- A text padded with spaces on the left to a number of characters. -/
def padLeft
    (width : Nat)
    (text : String) : String :=
  String.ofList (List.replicate (width - text.length) ' ') ++ text

end Decimal
end LockBench
