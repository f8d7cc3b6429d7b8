import LockBench.Manifest.Requirement
import LockBench.Text.Blank
import LockBench.Text.Lines

/-!
# Pipfiles

A Pipfile is scanned line by line.  A line that starts with a bracket opens a
section; inside the two dependency sections every line of the form
`name = "value"` declares a requirement, and every other line is passed over.
-/

namespace LockBench

/-- The sections of a Pipfile that declare dependencies. -/
inductive Section
  | packages
  | devPackages
  deriving DecidableEq, Repr

/-- The section that a trimmed header line opens, if it is a dependency
section. -/
def Section.ofHeader? (line : List Char) : Option Section :=
  if line = "[packages]".toList then some .packages
  else if line = "[dev-packages]".toList then some .devPackages
  else none

/-- The dependencies that a Pipfile declares, in order of declaration. -/
structure Pipfile where
  /-- Requirements at run time. -/
  packages : List Requirement := []
  /-- Requirements of development. -/
  devPackages : List Requirement := []
  deriving DecidableEq, Repr, Inhabited

namespace Pipfile

/-- Whether no dependency is declared. -/
def isEmpty (pipfile : Pipfile) : Bool :=
  pipfile.packages.isEmpty && pipfile.devPackages.isEmpty

/-- A Pipfile with one more requirement in front of a section. -/
def cons
    (requirement : Requirement)
    (pipfile : Pipfile) : Section -> Pipfile
  | .packages => { pipfile with packages := requirement :: pipfile.packages }
  | .devPackages =>
    { pipfile with devPackages := requirement :: pipfile.devPackages }

/-! ## Entries -/

/-- The value after a name: blanks, an equals sign, blanks, and the text
between two double quotes.  What follows the second quote does not matter. -/
def value? (chars : List Char) : Option (List Char) :=
  match Text.dropBlank chars with
  | '=' :: afterSign =>
    match Text.dropBlank afterSign with
    | '\x22' :: quoted =>
      if '\x22' ∈ quoted then some (quoted.takeWhile (· ≠ '\x22')) else none
    | _ => none
  | _ => none

/-- A name and its value, taking the longest name without blanks that leaves
a value after it. -/
def pair? : List Char -> Option (List Char × List Char)
  | [] => none
  | c :: rest =>
    if Text.isBlank c then none
    else
      match pair? rest with
      | some (name, value) => some (c :: name, value)
      | none => (value? rest).map fun value => ([c], value)

/-- The requirement that a trimmed line declares, if any. -/
def requirement? (line : List Char) : Option Requirement :=
  (pair? line).map fun (name, value) =>
    .ofEntry (String.ofList name) (String.ofList value)

/-! ## Scanning -/

/-- Scan trimmed lines from inside a section, or from outside of both. -/
def ofTrimmed
    (current : Option Section) : List (List Char) -> Pipfile
  | [] => {}
  | line :: rest =>
    if line.head? = some '[' then ofTrimmed (Section.ofHeader? line) rest
    else
      match current with
      | none => ofTrimmed none rest
      | some here =>
        if line.isEmpty || line.head? = some '#' then
          ofTrimmed (some here) rest
        else
          match requirement? line with
          | none => ofTrimmed (some here) rest
          | some requirement =>
            cons requirement (ofTrimmed (some here) rest) here

/-- The dependencies that the text of a Pipfile declares. -/
def ofText (content : String) : Pipfile :=
  ofTrimmed none ((Text.lines content.toList).map Text.trimBlank)

@[simp] theorem ofTrimmed_nil (current : Option Section) :
    ofTrimmed current [] = {} := rfl

end Pipfile
end LockBench
