import LockBench.CommandLine.Form
import LockBench.CommandLine.Word

/-!
# Gathering arguments

The words of a command line are met one after another.  A value that stands in
a word of its own is read only when the next word has been understood: a word
that cannot be understood is reported before a value that cannot be read.
-/

namespace LockBench
namespace CommandLine

/-- Why gathering ended before the words did. -/
inductive Interruption
  /-- Help was asked for, in its long form or in its short one. -/
  | help (long : Bool)
  | version
  | refused (error : UsageError)
  deriving DecidableEq, Repr

/-- What was met but not yet read. -/
inductive Pending (σ : Type)
  | nothing
  /-- A flag and its value, if that was met. -/
  | flag (flag : Flag σ) (reader : Reader σ) (value : Option String)
  | operand (operand : Operand σ) (value : String)

/-- How far gathering has come. -/
structure Progress (σ : Type) where
  /-- What has been gathered. -/
  draft : σ
  /-- The flags that were given, each once and in the order in which they were
  first given. -/
  given : List (Flag σ) := []
  /-- The number of operands that were met. -/
  filled : Nat := 0
  /-- What was met but not yet read. -/
  pending : Pending σ := .nothing

namespace Progress

/-- Whether a flag waits for its value. -/
def isAwaiting (progress : Progress σ) : Bool :=
  match progress.pending with
  | .flag _ _ none => true
  | _ => false

/-- Note that a flag was given. -/
def mark
    (progress : Progress σ)
    (flag : Flag σ) : Except UsageError (Progress σ) :=
  if progress.given.any fun earlier => earlier.name = flag.name then
    if flag.repeatable then .ok progress else .error (.repeated flag.display)
  else .ok { progress with given := progress.given ++ [flag] }

/-- Read the value of an argument. -/
def read
    (progress : Progress σ)
    (argument : String)
    (reader : Reader σ)
    (value : String) : Except UsageError (Progress σ) :=
  match reader value with
  | .ok change => .ok { progress with draft := change progress.draft }
  | .error .missing => .error (.missingValue argument)
  | .error (.invalid reason) => .error (.invalidValue value argument reason)

/-- Note that a flag was given, and read its value. -/
def readFlag
    (progress : Progress σ)
    (flag : Flag σ)
    (reader : Reader σ)
    (value : String) : Except UsageError (Progress σ) := do
  (← progress.mark flag).read flag.display reader value

/-- Read what was met but not yet read. -/
def settle (progress : Progress σ) : Except UsageError (Progress σ) :=
  let settled := { progress with pending := .nothing }
  match progress.pending with
  | .nothing => .ok progress
  | .flag flag _ none => .error (.missingValue flag.display)
  | .flag flag reader (some value) => settled.readFlag flag reader value
  | .operand operand value =>
    settled.read operand.display operand.reader value

/-- The outcome of a part of gathering, as that of the whole. -/
def lift (outcome : Except UsageError α) : Except Interruption α :=
  match outcome with
  | .ok result => .ok result
  | .error error => .error (.refused error)

/-- Meet a flag, by its long name or by its letter, and the value that is
attached to it, if one is. -/
def meetFlag
    (progress : Progress σ)
    (flag : Flag σ)
    (byName : Bool)
    (attached : Option String) : Except Interruption (Progress σ) :=
  match flag.effect, attached with
  | .value _ reader, some value => lift do
    (← progress.settle).readFlag flag reader value
  | .value _ reader, none => lift do
    return { ← progress.settle with pending := .flag flag reader none }
  | _, some value => .error (.refused (.surplusValue value flag.display))
  | .toggle set, none => lift do
    let marked ← (← progress.settle).mark flag
    return { marked with draft := set marked.draft }
  | .help, none => do
    discard (lift progress.settle)
    throw (.help byName)
  | .version, none => do
    discard (lift progress.settle)
    throw .version

end Progress

namespace Form

/-- A word that is no operand: it may be meant as a subcommand where there are
any. -/
def surplus
    (form : Form κ σ)
    (afterDivider : Bool)
    (word : String) : UsageError :=
  if form.commands.isEmpty ∨
      afterDivider ∧ (form.commands.lookup word).isSome then
    .unknownArgument word
  else .unknownCommand word

/-- Meet an operand. -/
def meetOperand
    (form : Form κ σ)
    (afterDivider : Bool)
    (progress : Progress σ)
    (word : String) : Except Interruption (Progress σ) :=
  match form.operands[progress.filled]? with
  | none => .error (.refused (form.surplus afterDivider word))
  | some operand => Progress.lift do
    return { ← progress.settle with
      filled := progress.filled + 1
      pending := .operand operand word }

/-- Meet a long name. -/
def meetName
    (form : Form κ σ)
    (progress : Progress σ)
    (name : String)
    (attached : Option String) : Except Interruption (Progress σ) :=
  match form.flagOfName? name with
  | none => .error (.refused (.unknownArgument ("--" ++ name)))
  | some flag => progress.meetFlag flag true attached

/-- The value that is attached to a letter, with or without an equals sign. -/
def attachedValue? : List Char -> Option String
  | [] => none
  | '=' :: value => some (String.ofList value)
  | value => some (String.ofList value)

/-- Meet letters.  What follows the letter of a flag that takes a value is that
value. -/
def meetLetters
    (form : Form κ σ)
    (progress : Progress σ) :
    List Char -> Except Interruption (Progress σ)
  | [] => .ok progress
  | letter :: rest =>
    match form.flagOfLetter? letter with
    | none =>
      .error (.refused (.unknownArgument ("-" ++ String.singleton letter)))
    | some flag =>
      match flag.effect with
      | .value _ _ => progress.meetFlag flag false (attachedValue? rest)
      | _ => do form.meetLetters (← progress.meetFlag flag false none) rest

/-- Meet a word that is no flag: the value of a flag that waits for one, or
else an operand. -/
def meetPlain
    (form : Form κ σ)
    (progress : Progress σ)
    (word : String) : Except Interruption (Progress σ) :=
  match progress.pending with
  | .flag flag reader none =>
    .ok { progress with pending := .flag flag reader (some word) }
  | _ => form.meetOperand false progress word

/-- Meet words after the divider. -/
def gatherOperands
    (form : Form κ σ)
    (progress : Progress σ) :
    List String -> Except Interruption (Progress σ)
  | [] => Progress.lift progress.settle
  | word :: rest => do
    form.gatherOperands (← form.meetOperand true progress word) rest

/-- A subcommand that was met, and the words after it. -/
structure Onward (κ : Type) where
  /-- The subcommand. -/
  command : κ
  /-- The words after it. -/
  words : List String
  deriving DecidableEq, Repr

/-- The subcommand of a word, unless the word is the value of a flag. -/
def commandOf?
    (form : Form κ σ)
    (progress : Progress σ)
    (word : String) : Option κ :=
  if progress.isAwaiting then none else form.commands.lookup word

/-- Meet words, up to the first that names a subcommand. -/
def gather
    (form : Form κ σ)
    (progress : Progress σ) :
    List String -> Except Interruption (Progress σ × Option (Onward κ))
  | [] => do return (← Progress.lift progress.settle, none)
  | word :: rest =>
    match form.commandOf? progress word with
    | some command => do
      return (← Progress.lift progress.settle, some ⟨command, rest⟩)
    | none =>
      match Word.ofText word with
      | .divider => do return (← form.gatherOperands progress rest, none)
      | .long name attached => do
        form.gather (← form.meetName progress name attached) rest
      | .short letters => do
        form.gather (← form.meetLetters progress letters) rest
      | .plain => do form.gather (← form.meetPlain progress word) rest

/-! ## What must hold in the end -/

/-- Whether two flags exclude each other. -/
def excludes
    (form : Form κ σ)
    (flag other : Flag σ) : Bool :=
  (flag.name, other.name) ∈ form.exclusions ∨
    (other.name, flag.name) ∈ form.exclusions

/-- The first two flags that were given and exclude each other. -/
def conflict?
    (form : Form κ σ)
    (given : List (Flag σ)) : Option UsageError :=
  given.findSome? fun flag =>
    (given.find? (form.excludes flag)).map fun other =>
      .conflict flag.display other.display

/-- The operands that must be given but were not met. -/
def missingOperands
    (form : Form κ σ)
    (filled : Nat) : List (Operand σ) :=
  (form.operands.drop filled).filter Operand.required

/-- What has been gathered, if it is consistent and complete. -/
def check
    (form : Form κ σ)
    (progress : Progress σ) : Except UsageError σ :=
  match form.conflict? progress.given with
  | some error => .error error
  | none =>
    match form.missingOperands progress.filled with
    | [] => .ok progress.draft
    | missing => .error (.missingArguments (missing.map Operand.display))

end Form
end CommandLine
end LockBench
