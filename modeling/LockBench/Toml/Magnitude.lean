import LockBench.Toml.Scalar

/-!
# Numbers that can be represented

An integer is used as a word of up to 128 bits, a floating-point number as a
double.  A document may hold numbers that are too large for that; only a value
that is used has to do without them.
-/

namespace LockBench
namespace Toml

/-- Whether an integer fits a signed or an unsigned word of 128 bits. -/
def fitsWord (value : Int) : Bool :=
  let least : Int := Nat.pow 2 127
  let bound : Int := Nat.pow 2 128
  value < bound ∧ -least ≤ value

/-- Whether a decimal number rounds to infinity as a double.  The counts of
digits decide unless they are close to the limit. -/
def Scientific.overflows (number : Scientific) : Bool :=
  let significant := number.digits.dropWhile (· = '0')
  let size : Int := significant.length + number.power
  if significant.isEmpty ∨ size < 300 then false
  else if 320 < size then true
  else
    let limit := Nat.pow 2 1024 - Nat.pow 2 970
    let value := valueIn 10 significant
    let scale := Nat.pow 10 number.power.natAbs
    if 0 ≤ number.power then limit ≤ value * scale
    else limit * scale ≤ value

/-- Whether a floating-point number fits a double. -/
def fitsDouble (source : String) : Bool :=
  match scientific? source.toList with
  | some number => !number.overflows
  | none => true

mutual

/-- Whether all numbers of a value can be represented. -/
def Value.fits : Value -> Bool
  | .text _ => true
  | .integer value => fitsWord value
  | .float source => fitsDouble source
  | .boolean _ => true
  | .moment _ _ => true
  | .array items => itemsFit items
  | .table _ entries => entriesFit entries
  | .rows tables => tablesFit tables

/-- Whether all numbers of some items can be represented. -/
def itemsFit : List Value -> Bool
  | [] => true
  | item :: rest => item.fits && itemsFit rest

/-- Whether all numbers of some entries can be represented. -/
def entriesFit : List (String × Value) -> Bool
  | [] => true
  | (_, value) :: rest => value.fits && entriesFit rest

/-- Whether all numbers of some tables can be represented. -/
def tablesFit : List (List (String × Value)) -> Bool
  | [] => true
  | entries :: rest => entriesFit entries && tablesFit rest

end

@[simp] theorem itemsFit_eq_all (items : List Value) :
    itemsFit items = items.all Value.fits := by
  induction items with
  | nil => simp [itemsFit]
  | cons item rest ih => simp [itemsFit, ih]

@[simp] theorem entriesFit_eq_all (entries : List (String × Value)) :
    entriesFit entries = entries.all fun entry => entry.2.fits := by
  induction entries with
  | nil => simp [entriesFit]
  | cons entry rest ih => simp [entriesFit, ih]

end Toml
end LockBench
