import LockBench.Host.Action

/-!
# File trees

A file tree gives every location, by the names on the way from the root, the
directory or file there.  Operations take paths: they find their way step by
step, and they fail as a file system does when a step is missing or leads
through a file.
-/

namespace LockBench

/-- A place in a file tree: the names on the way from the root. -/
abbrev Location := List String

namespace Location

/-- The absolute path of a location. -/
def path (location : Location) : Path :=
  ⟨"/" ++ "/".intercalate location⟩

end Location

/-- What is at a location. -/
inductive Node
  | directory
  | file (content : ByteArray) (executable : Bool)

/-- The kind of a node. -/
def Node.kind : Node -> Kind
  | .directory => .directory
  | .file _ executable => .file executable

/-- The nodes below the root, each at its location. -/
structure FileTree where
  /-- The nodes; where a location is listed twice, the first one counts. -/
  nodes : List (Location × Node)

namespace FileTree

/-- The tree with nothing below the root. -/
def empty : FileTree := ⟨[]⟩

/-- The node at a location. -/
def get?
    (tree : FileTree) : Location -> Option Node
  | [] => some .directory
  | location => tree.nodes.lookup location

/-- The tree with a node put at a location below the root. -/
def put
    (tree : FileTree)
    (location : Location)
    (node : Node) : FileTree :=
  ⟨(location, node) :: tree.nodes.filter (·.1 ≠ location)⟩

/-- The tree without the node at a location. -/
def remove
    (tree : FileTree)
    (location : Location) : FileTree :=
  ⟨tree.nodes.filter (·.1 ≠ location)⟩

/-- The tree without the nodes at and below a location. -/
def removeBelow
    (tree : FileTree)
    (location : Location) : FileTree :=
  ⟨tree.nodes.filter fun node => !location.isPrefixOf node.1⟩

/-- The names of the entries of a directory. -/
def names
    (tree : FileTree)
    (location : Location) : List String :=
  tree.nodes.filterMap fun (place, _) =>
    if place.dropLast = location then place.getLast? else none

@[simp] theorem get?_root (tree : FileTree) :
    tree.get? [] = some .directory := rfl

@[simp] theorem get?_put_self
    (tree : FileTree)
    (location : Location)
    (node : Node)
    (below : location ≠ []) :
    (tree.put location node).get? location = some node := by
  cases location with
  | nil => exact absurd rfl below
  | cons name rest => simp [get?, put]

/-! ## Finding the way -/

/-- The longest name of a file, in bytes. -/
def nameLimit : Nat := 255

/-- The longest path, in bytes. -/
def pathLimit : Nat := 4095

/-- Follow steps from a location. -/
def walk
    (tree : FileTree)
    (location : Location) : List String -> Except OsError Location
  | [] => .ok location
  | step :: rest =>
    match tree.get? location with
    | none => .error .noSuchFile
    | some (.file _ _) => .error .notADirectory
    | some .directory =>
      if step = ".." then tree.walk location.dropLast rest
      else if nameLimit < step.utf8ByteSize then .error .nameTooLong
      else
        match tree.get? (location ++ [step]) with
        | none => .error .noSuchFile
        | some _ => tree.walk (location ++ [step]) rest

/-- Where a path starts. -/
def start
    (workingDir : Location)
    (path : Path) : Location :=
  if path.isAbsolute then [] else workingDir

/-- Whether no file can have a path, whatever the tree. -/
def unusable? (path : Path) : Option OsError :=
  if path.text.toList.contains '\x00' then some .nulInPath
  else if path.text.isEmpty then some .noSuchFile
  else if pathLimit < path.text.utf8ByteSize then some .nameTooLong
  else none

/-- The location of what a path leads to. -/
def locate
    (tree : FileTree)
    (workingDir : Location)
    (path : Path) : Except OsError Location :=
  match unusable? path with
  | some cause => .error cause
  | none => do
    let location ← tree.walk (start workingDir path) path.steps
    match tree.get? location with
    | some (.file _ _) =>
      if path.asksDirectory then .error .notADirectory else return location
    | _ => return location

/-- What a path leads to. -/
def find
    (tree : FileTree)
    (workingDir : Location)
    (path : Path) : Except OsError (Location × Node) := do
  let location ← tree.locate workingDir path
  match tree.get? location with
  | none => .error .noSuchFile
  | some node => return (location, node)

/-- The location at which a path makes something new or changes what is
there: a name in a directory that is there.  It is `none` where the path ends
in a step that makes nothing. -/
def place
    (tree : FileTree)
    (workingDir : Location)
    (path : Path) : Except OsError (Option Location) :=
  match unusable? path with
  | some cause => .error cause
  | none => do
    let parent ← tree.walk (start workingDir path) path.steps.dropLast
    match tree.get? parent with
    | some .directory =>
      match path.steps.getLast? with
      | none => return none
      | some name =>
        if name = ".." then return none
        else if nameLimit < name.utf8ByteSize then .error .nameTooLong
        else return some (parent ++ [name])
    | some (.file _ _) => .error .notADirectory
    | none => .error .noSuchFile

/-! ## Files -/

/-- The content of a file. -/
def read
    (tree : FileTree)
    (workingDir : Location)
    (path : Path) : Except OsError ByteArray := do
  match ← tree.find workingDir path with
  | (_, .directory) => .error .isADirectory
  | (_, .file content _) => return content

/-- Change the content of a file, or make it from nothing.  What is made is
executable only where that is asked for. -/
def change
    (tree : FileTree)
    (workingDir : Location)
    (path : Path)
    (executable : Option Bool)
    (edit : ByteArray -> ByteArray) : Except OsError FileTree := do
  match ← tree.place workingDir path with
  | none => .error .isADirectory
  | some location =>
    if path.endsInDot then
      match tree.get? location with
      | none => .error .noSuchFile
      | some (.file _ _) => .error .notADirectory
      | some .directory => .error .isADirectory
    else if path.asksDirectory then .error .isADirectory
    else
      match tree.get? location with
      | some .directory => .error .isADirectory
      | some (.file content old) =>
        return tree.put location
          (.file (edit content) (executable.getD old))
      | none =>
        return tree.put location
          (.file (edit .empty) (executable.getD false))

/-- Replace the content of a file. -/
def write
    (tree : FileTree)
    (workingDir : Location)
    (path : Path)
    (content : ByteArray) : Except OsError FileTree :=
  tree.change workingDir path none fun _ => content

/-- Add to the end of a file. -/
def append
    (tree : FileTree)
    (workingDir : Location)
    (path : Path)
    (content : ByteArray) : Except OsError FileTree :=
  tree.change workingDir path none fun old => old ++ content

/-- Replace one file's content by another's.  The target is emptied before the
source is read, so a file copied onto itself is empty afterwards. -/
def copy
    (tree : FileTree)
    (workingDir : Location)
    (source target : Path) : Except OsError FileTree := do
  match ← tree.find workingDir source with
  | (_, .directory) => .error .notRegular
  | (_, .file _ executable) =>
    let emptied ← tree.change workingDir target (some executable)
      fun _ => .empty
    let content ← emptied.read workingDir source
    emptied.write workingDir target content

/-- Remove a file. -/
def removeFile
    (tree : FileTree)
    (workingDir : Location)
    (path : Path) : Except OsError FileTree := do
  match ← tree.find workingDir path with
  | (_, .directory) => .error .isADirectory
  | (location, .file _ _) => return tree.remove location

/-! ## Directories -/

/-- Make one directory. -/
def makeDir
    (tree : FileTree)
    (workingDir : Location)
    (path : Path) : Except OsError FileTree := do
  match ← tree.place workingDir path with
  | none => .error .fileExists
  | some location =>
    match tree.get? location with
    | some .directory => .error .fileExists
    | some (.file _ _) =>
      if path.endsInDot then .error .notADirectory else .error .fileExists
    | none =>
      if path.endsInDot then .error .noSuchFile
      else return tree.put location .directory

/-- Whether a path leads to a directory. -/
def isDirectory
    (tree : FileTree)
    (workingDir : Location)
    (path : Path) : Bool :=
  match tree.find workingDir path with
  | .ok (_, .directory) => true
  | _ => false

/-- Make a directory, or leave one that is there. -/
def ensureDir
    (tree : FileTree)
    (workingDir : Location)
    (path : Path) : Except OsError FileTree :=
  match tree.makeDir workingDir path with
  | .ok made => .ok made
  | .error cause =>
    if tree.isDirectory workingDir path then .ok tree else .error cause

/-- Make a directory and those above it that are missing.  The first argument
bounds the number of directories. -/
def makeDirsUpTo : Nat -> FileTree -> Location -> Path ->
    Except OsError FileTree
  | 0, tree, workingDir, path => tree.ensureDir workingDir path
  | levels + 1, tree, workingDir, path =>
    if path.text.isEmpty then .ok tree
    else
      match tree.makeDir workingDir path with
      | .ok made => .ok made
      | .error .noSuchFile =>
        match path.parent? with
        | none => .error .noSuchFile
        | some parent => do
          let made ← makeDirsUpTo levels tree workingDir parent
          made.ensureDir workingDir path
      | .error cause =>
        if tree.isDirectory workingDir path then .ok tree else .error cause

/-- Make a directory and those above it that are missing. -/
def makeDirs
    (tree : FileTree)
    (workingDir : Location)
    (path : Path) : Except OsError FileTree :=
  makeDirsUpTo (path.steps.length + 1) tree workingDir path

/-- What is left where a directory cannot be made together with those above it
that are missing: the ones that could be made stay. -/
def leftUpTo : Nat -> FileTree -> Location -> Path -> FileTree
  | 0, tree, _, _ => tree
  | levels + 1, tree, workingDir, path =>
    match tree.makeDir workingDir path, path.parent? with
    | .error .noSuchFile, some parent =>
      match makeDirsUpTo levels tree workingDir parent with
      | .ok made => made
      | .error _ => leftUpTo levels tree workingDir parent
    | _, _ => tree

/-- What is left where making a directory and those above it that are missing
fails. -/
def leftByDirs
    (tree : FileTree)
    (workingDir : Location)
    (path : Path) : FileTree :=
  leftUpTo (path.steps.length + 1) tree workingDir path

/-- The names of the entries of a directory. -/
def entries
    (tree : FileTree)
    (workingDir : Location)
    (path : Path) : Except OsError (List String) := do
  match ← tree.find workingDir path with
  | (location, .directory) => return tree.names location
  | (_, .file _ _) => .error .notADirectory

/-- Remove a directory and all that is in it, if it is there. -/
def removeTree
    (tree : FileTree)
    (workingDir : Location)
    (path : Path) : FileTree :=
  match tree.find workingDir path with
  | .ok (location, .directory) => tree.removeBelow location
  | _ => tree

end FileTree
end LockBench
