import LockBench.CommandLine.Usage

/-!
# Forms of commands

A form says which flags and operands a command takes, and what each of them
does to what is being gathered.
-/

namespace LockBench
namespace CommandLine

/-- Why a value was refused. -/
inductive ValueError
  /-- It is empty where it must not be. -/
  | missing
  | invalid (reason : String)
  deriving DecidableEq, Repr

/-- How a value changes what is being gathered. -/
abbrev Reader (σ : Type) := String -> Except ValueError (σ -> σ)

/-- What a flag does. -/
inductive Effect (σ : Type)
  /-- It changes something. -/
  | toggle (set : σ -> σ)
  /-- It takes a value, shown under a placeholder. -/
  | value (placeholder : String) (reader : Reader σ)
  /-- It asks for help. -/
  | help
  /-- It asks for the version. -/
  | version

/-- A flag. -/
structure Flag (σ : Type) where
  /-- Its letter, if it has one. -/
  letter : Option Char := none
  /-- Its long name. -/
  name : String
  /-- What it does. -/
  effect : Effect σ
  /-- Whether it may be given more than once. -/
  repeatable : Bool := false
  /-- What it is for. -/
  summary : String
  /-- What it is for, on a long page, if that says something else. -/
  details : Option String := none

namespace Flag

/-- What follows the long name of a flag where it is shown. -/
def suffix (flag : Flag σ) : String :=
  match flag.effect, flag.repeatable with
  | .value placeholder _, _ => " <" ++ placeholder ++ ">"
  | .toggle _, true => "..."
  | _, _ => ""

/-- A flag as it is shown. -/
def display (flag : Flag σ) : String :=
  "--" ++ flag.name ++ flag.suffix

end Flag

/-- An operand. -/
structure Operand (σ : Type) where
  /-- What it is called. -/
  placeholder : String
  /-- Whether it must be given. -/
  required : Bool := true
  /-- What it changes. -/
  reader : Reader σ
  /-- What it is for. -/
  summary : String := ""

/-- An operand as it is shown. -/
def Operand.display (operand : Operand σ) : String :=
  if operand.required then "<" ++ operand.placeholder ++ ">"
  else "[" ++ operand.placeholder ++ "]"

/-- What a command takes, and the subcommands that it has. -/
structure Form (κ σ : Type) where
  /-- Its flags, in the order in which they are listed. -/
  flags : List (Flag σ)
  /-- Its operands, in order. -/
  operands : List (Operand σ) := []
  /-- Its subcommands by name. -/
  commands : List (String × κ) := []
  /-- Flags that exclude each other, by name. -/
  exclusions : List (String × String) := []

namespace Form

/-- The flag of a long name. -/
def flagOfName?
    (form : Form κ σ)
    (name : String) : Option (Flag σ) :=
  form.flags.find? fun flag => flag.name = name

/-- The flag of a letter. -/
def flagOfLetter?
    (form : Form κ σ)
    (letter : Char) : Option (Flag σ) :=
  form.flags.find? fun flag => flag.letter = some letter

end Form
end CommandLine
end LockBench
