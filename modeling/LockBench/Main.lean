import LockBench.Host.Calendar
import LockBench.Program

/-!
# The program on a real system

Every request of an action is answered by the system that the program runs on.
Processes cannot be started from here: such a request is refused.  Names that
are no texts cannot be told from here either: they come with U+FFFD in them, and
what has them is not found.
-/

namespace LockBench
namespace LocalHost

/-- The cause that an error of the system stands for. -/
def osError : IO.Error -> OsError
  | .noFileOrDirectory _ _ _ => .noSuchFile
  | .noSuchThing _ _ _ => .noSuchFile
  | .permissionDenied _ _ _ => .permissionDenied
  | .alreadyExists _ _ _ => .fileExists
  | .inappropriateType _ 20 _ => .notADirectory
  | .inappropriateType _ 21 _ => .isADirectory
  | error => .other (toString error)

/-- Do something that the system may refuse. -/
def attempt (action : IO α) : IO (Except OsError α) := do
  try return .ok (← action)
  catch error => return .error (osError error)

/-- Do something with a path that the system may refuse. -/
def attemptAt
    (path : Path)
    (action : String -> IO α) : IO (Except OsError α) :=
  if path.text.toList.contains '\x00' then return .error .nulInPath
  else attempt (action path.text)

/-- What a path leads to.  Whether a file may be executed is not known here,
so that every file counts as a program. -/
def kindAt (path : String) : IO Kind := do
  if ← (← IO.FS.realPath path).isDir then return .directory
  else return .file true

/-- Add to the end of a file. -/
def appendAt
    (content : ByteArray)
    (path : String) : IO Unit := do
  let handle ← IO.FS.Handle.mk path .append
  handle.write content

/-- The names of the entries of a directory. -/
def entriesAt (path : String) : IO (List EntryName) := do
  return (← (← IO.FS.realPath path).readDir).toList.map (.text ·.fileName)

/-- The characters of fresh names. -/
def alphabet : Array Char :=
  "ABCDEFGHIJKLMNOPQRSTUVWXYZabcdefghijklmnopqrstuvwxyz0123456789".toList.toArray

/-- A name that starts with a stem and ends in six characters at random. -/
def freshName (stem : String) : IO String := do
  let bytes ← IO.getRandomBytes 6
  return stem ++ String.ofList
    (bytes.toList.map fun byte => alphabet.getD (byte.toNat % alphabet.size) 'x')

/-- Make a directory with a fresh name. -/
def makeFreshDirAt
    (stem parent : String) : IO Path := do
  let path := (Path.mk parent).join (← freshName stem)
  IO.FS.createDir path.text
  return path

/-- The seconds since the start of 1970, as the system stamps a new file. -/
def seconds : IO Nat := do
  let (_, path) ← IO.FS.createTempFile
  let modified := (← path.metadata).modified
  IO.FS.removeFile path
  return modified.sec.toNat

/-- Write to a stream at once. -/
def writeTo
    (stream : IO.FS.Stream)
    (text : String) : IO Unit := do
  stream.putStr text
  stream.flush

/-- Answer a request. -/
def answer : (request : Request) -> IO request.Answer
  | .variable name => IO.getEnv name
  | .workingDir => return ⟨toString (← IO.currentDir)⟩
  | .kind path => return (← attemptAt path kindAt).toOption
  | .rawKind _ => return none
  | .read path => attemptAt path fun text => IO.FS.readBinFile text
  | .rawRead _ => return .error .unsupported
  | .write path content =>
    attemptAt path fun text => IO.FS.writeBinFile text content
  | .append path content => attemptAt path (appendAt content)
  | .copy source target => do
    match ← attemptAt source fun text => IO.FS.readBinFile text with
    | .error cause => return .error cause
    | .ok content =>
      attemptAt target fun text => IO.FS.writeBinFile text content
  | .makeDirs path => attemptAt path fun text => IO.FS.createDirAll text
  | .entries path => attemptAt path entriesAt
  | .removeFile path => attemptAt path fun text => IO.FS.removeFile text
  | .makeFreshDir parent stem => attemptAt parent (makeFreshDirAt stem)
  | .removeTree path =>
    discard (attemptAt path fun text => IO.FS.removeDirAll text)
  | .capture _ => return .error .unsupported
  | .attend _ => return .error .unsupported
  | .clock => return momentText (← seconds)
  | .print text => do writeTo (← IO.getStdout) text
  | .printError text => do writeTo (← IO.getStderr) text

end LocalHost
end LockBench

/-- Do what the words of the command line ask for. -/
def main (words : List String) : IO UInt32 := do
  let code ← (LockBench.Program.perform words).interpret LockBench.LocalHost.answer
  return code.toUInt32
