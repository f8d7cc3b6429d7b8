import LockBench.Json.Value

/-!
# Numerals as doubles

A numeral is gathered into a significand of at most 64 bits and a power of
ten.  Digits that no longer fit the significand only move the power, and the
double is the significand multiplied or divided by that power, in one step
where the power is in the table and in steps of `10 ^ 308` below it.
-/

namespace LockBench
namespace Json

/-- The digits read so far: a significand and a power of ten. -/
structure Gathered where
  /-- An integer below `2 ^ 64`. -/
  significand : Nat
  /-- The power of ten that it is multiplied by. -/
  power : Int
  /-- Whether a digit has been left out. -/
  full : Bool
  deriving DecidableEq, Repr

namespace Gathered

/-- Whether one more digit still fits the significand. -/
def fits
    (gathered : Gathered)
    (digit : Nat) : Bool :=
  gathered.significand * 10 + digit < UInt64.size

/-- A digit before the point. -/
def pushWhole
    (gathered : Gathered)
    (digit : Nat) : Gathered :=
  if !gathered.full && gathered.fits digit then
    { gathered with significand := gathered.significand * 10 + digit }
  else
    { gathered with power := gathered.power + 1, full := true }

/-- A digit after the point. -/
def pushFraction
    (gathered : Gathered)
    (digit : Nat) : Gathered :=
  if !gathered.full && gathered.fits digit then
    { gathered with
      significand := gathered.significand * 10 + digit
      power := gathered.power - 1 }
  else
    { gathered with full := true }

end Gathered

/-- The largest power that the reader counts to. -/
def powerLimit : Int := 0x7FFFFFFF

/-- The value of an exponent's digits, or `none` past the limit. -/
def exponentValue?
    (value : Nat) : List Nat -> Option Nat
  | [] => some value
  | digit :: rest =>
    if value * 10 + digit ≤ 0x7FFFFFFF then
      exponentValue? (value * 10 + digit) rest
    else none

/-- Powers of ten as doubles. -/
def powerOfTen (power : Nat) : Float :=
  Float.ofScientific 1 false power

/-- A magnitude scaled by a power of ten, or `none` when no double is that
large.  The first argument bounds the number of steps. -/
def scale?
    (steps : Nat)
    (magnitude : Float)
    (power : Int) : Option Float :=
  if power.natAbs ≤ 308 then
    if 0 ≤ power then
      let scaled := magnitude * powerOfTen power.natAbs
      if scaled.isInf then none else some scaled
    else some (magnitude / powerOfTen power.natAbs)
  else if magnitude == 0 then some magnitude
  else if 0 ≤ power then none
  else
    match steps with
    | 0 => some (magnitude / powerOfTen 308)
    | steps + 1 => scale? steps (magnitude / powerOfTen 308) (power + 308)

/-- The magnitude of a numeral, or `none` when it is too large. -/
def Numeral.magnitude? (numeral : Numeral) : Option Float :=
  let whole := numeral.whole.foldl Gathered.pushWhole ⟨0, 0, false⟩
  let gathered := (numeral.fraction.getD []).foldl Gathered.pushFraction
    { whole with full := false }
  let start := gathered.significand.toUInt64.toFloat
  match numeral.exponent with
  | none => scale? 16 start gathered.power
  | some (negative, digits) =>
    match exponentValue? 0 digits with
    | none =>
      if gathered.significand ≠ 0 ∧ !negative then none else some 0
    | some exponent =>
      let power := if negative then gathered.power - exponent
        else gathered.power + exponent
      scale? 16 start (max (-powerLimit - 1) (min powerLimit power))

/-- The double that a numeral stands for, or `none` when it is too large. -/
def Numeral.toFloat? (numeral : Numeral) : Option Float :=
  numeral.magnitude?.map fun magnitude =>
    if numeral.negative then -magnitude else magnitude

/-- The value of a numeral without fraction, exponent or sign. -/
def Numeral.toNat? (numeral : Numeral) : Option Nat :=
  if numeral.negative ∨ numeral.fraction.isSome ∨ numeral.exponent.isSome then
    none
  else some (numeral.whole.foldl (fun value digit => value * 10 + digit) 0)

end Json
end LockBench
