import LockBench.CommandLine.Form
import LockBench.Host.Path
import LockBench.Session.Seeding

/-!
# Values of flags and operands

Any text is a text, any text but the empty one a path.  A count is read as a
whole number of 64 bits first, so that a number that is none is told from one
that is out of range.
-/

namespace LockBench
namespace CommandLine

/-- Why a text is no whole number of 64 bits. -/
inductive NumberFault
  | empty
  | digit
  | large
  | small
  deriving DecidableEq, Repr

/-- The text under which a fault is reported. -/
def NumberFault.message : NumberFault -> String
  | .empty => "cannot parse integer from empty string"
  | .digit => "invalid digit found in string"
  | .large => "number too large to fit in target type"
  | .small => "number too small to fit in target type"

/-- Read on in decimal digits, as long as the value stays within a limit. -/
def readDigits
    (limit : Nat)
    (beyond : NumberFault)
    (value : Nat) : List Char -> Except NumberFault Nat
  | [] => .ok value
  | c :: rest =>
    if c.isDigit then
      let next := value * 10 + (c.toNat - 48)
      if next ≤ limit then readDigits limit beyond next rest
      else .error beyond
    else .error .digit

/-- Decimal digits, at least one of them. -/
def readMagnitude
    (limit : Nat)
    (beyond : NumberFault)
    (digits : List Char) : Except NumberFault Nat :=
  if digits.isEmpty then .error .digit
  else readDigits limit beyond 0 digits

/-- A whole number of 64 bits: a sign if there is one, and decimal digits. -/
def readInteger (text : String) : Except NumberFault Int :=
  match text.toList with
  | [] => .error .empty
  | '+' :: digits => (readMagnitude greatest .large digits).map Int.ofNat
  | '-' :: digits =>
    (readMagnitude (greatest + 1) .small digits).map fun size => -(size : Int)
  | digits => (readMagnitude greatest .large digits).map Int.ofNat
where
  /-- The greatest whole number of 64 bits. -/
  greatest : Nat := 0x7FFFFFFFFFFFFFFF

/-- The greatest count. -/
def greatestCount : Nat := UInt32.size - 1

/-- The count that a text holds. -/
def readCount (text : String) : Except ValueError Nat :=
  match readInteger text with
  | .error fault => .error (.invalid fault.message)
  | .ok value =>
    if 0 ≤ value ∧ value ≤ greatestCount then .ok value.toNat
    else
      .error (.invalid (toString value ++ " is not in 0..=" ++
        toString greatestCount))

/-- A path, which is not empty. -/
def readPath (text : String) : Except ValueError Path :=
  if text.isEmpty then .error .missing else .ok ⟨text⟩

/-- The operation of a name. -/
def readOperation (text : String) : Except ValueError Operation :=
  match Operation.ofName? text with
  | some operation => .ok operation
  | none => .error (.invalid (SuiteFailure.unknownOperation text).message)

end CommandLine
end LockBench
