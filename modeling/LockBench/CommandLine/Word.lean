/-!
# Words of a command line

The form of a word tells what it may be, before it is known which flags there
are.
-/

namespace LockBench
namespace CommandLine

/-- What the form of a word tells. -/
inductive Word
  /-- Two hyphens: no flags from here on. -/
  | divider
  /-- A long name after two hyphens, and what follows its equals sign. -/
  | long (name : String) (value : Option String)
  /-- Letters after one hyphen, at least one. -/
  | short (letters : List Char)
  /-- Anything else, a hyphen alone included. -/
  | plain
  deriving DecidableEq, Repr

/-- A long name and what follows its equals sign. -/
def Word.ofLong (body : List Char) : Word :=
  let name := String.ofList (body.takeWhile (· ≠ '='))
  match body.dropWhile (· ≠ '=') with
  | [] => .long name none
  | _ :: value => .long name (some (String.ofList value))

/-- The form of a word. -/
def Word.ofText (text : String) : Word :=
  match text.toList with
  | ['-', '-'] => .divider
  | '-' :: '-' :: body => .ofLong body
  | '-' :: letter :: letters => .short (letter :: letters)
  | _ => .plain

end CommandLine
end LockBench
