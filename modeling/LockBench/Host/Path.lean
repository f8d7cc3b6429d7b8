/-!
# Paths

A path is its text.  Paths that are not Unicode are left out: the working
directory, the directory of the cache and every path that is given are texts,
and the one place where other names come in, the listing of a directory, has
names of its own.

Joining never tidies: an absolute right side replaces the left side, and
otherwise a separator is put in where the left side has none at its end.
Looking at the parts of a path skips empty parts and single dots.
-/

namespace LockBench

/-- A path of the file system, kept as it was written.  It is a text: a path of
other bytes is not modelled. -/
structure Path where
  /-- The text of the path. -/
  text : String
  deriving DecidableEq, Repr, Inhabited

namespace Path

instance : ToString Path := ⟨Path.text⟩

/-- Whether the path starts at the root. -/
def isAbsolute (path : Path) : Bool :=
  path.text.toList.head? = some '/'

/-- A path below another one, or itself where it is absolute. -/
def join
    (base : Path)
    (child : String) : Path :=
  if child.toList.head? = some '/' then ⟨child⟩
  else if base.text.isEmpty ∨ base.text.toList.getLast? = some '/' then
    ⟨base.text ++ child⟩
  else ⟨base.text ++ "/" ++ child⟩

/-- The parts of some characters between marks, given the characters of the
current part in reverse. -/
def splitFrom
    (mark : Char)
    (current : List Char) : List Char -> List String
  | [] => [String.ofList current.reverse]
  | c :: rest =>
    if c = mark then String.ofList current.reverse :: splitFrom mark [] rest
    else splitFrom mark (c :: current) rest

/-- The parts of a text between marks, empty ones included. -/
def splitAt
    (mark : Char)
    (text : String) : List String :=
  splitFrom mark [] text.toList

/-- The parts of a path between slashes, empty ones included. -/
def parts (path : Path) : List String :=
  splitAt '/' path.text

/-- Whether a part leads somewhere else. -/
def isStep (part : String) : Bool :=
  part ≠ "" ∧ part ≠ "."

/-- The parts of a path that lead somewhere else: names and double dots. -/
def steps (path : Path) : List String :=
  path.parts.filter isStep

/-- The name of what the path leads to, unless it ends in a double dot or
names nothing. -/
def fileName? (path : Path) : Option String :=
  path.steps.getLast?.filter (· ≠ "..")

/-- The path without its last step, or `none` where it has no step. -/
def parent? (path : Path) : Option Path :=
  if path.steps.isEmpty then none
  else some ⟨(if path.isAbsolute then "/" else "") ++
    "/".intercalate path.steps.dropLast⟩

/-- A name cut at its last dot, unless that dot starts the name.  A name is a
list of characters or of bytes. -/
def splitName
    [DecidableEq α]
    (dot : α)
    (name : List α) : List α × Option (List α) :=
  let backwards := name.reverse
  let extension := backwards.takeWhile (· ≠ dot)
  match backwards.dropWhile (· ≠ dot) with
  | [] => (name, none)
  | _ :: [] => (name, none)
  | _ :: stem => (stem.reverse, some extension.reverse)

/-- The name of what the path leads to, without its extension. -/
def stem? (path : Path) : Option String :=
  path.fileName?.map fun name => String.ofList (splitName '.' name.toList).1

/-- The extension of the name of what the path leads to. -/
def extension? (path : Path) : Option String :=
  path.fileName?.bind fun name =>
    (splitName '.' name.toList).2.map String.ofList

/-- Whether the path asks for a directory, by a slash or a dot at its end. -/
def asksDirectory (path : Path) : Bool :=
  match path.parts.getLast? with
  | some part => part = "" ∨ part = "." ∨ part = ".."
  | none => false

/-- Whether the last part of the path is a single dot, slashes after it
aside. -/
def endsInDot (path : Path) : Bool :=
  (path.parts.filter (· ≠ "")).getLast? = some "."

end Path
end LockBench
