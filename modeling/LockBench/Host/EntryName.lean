import LockBench.Host.Path
import LockBench.Text.Utf8

/-!
# Names of entries

What is in a directory has a name of bytes.  Nearly always they are those of a
text, and then a path is the text of the directory's path and the name.  A name
that is no text can still be listed, looked at and shown, but no text leads to
what has it.
-/

namespace LockBench

/-- A name that is no text. -/
structure RawName where
  /-- The bytes of the name. -/
  bytes : List UInt8
  /-- They are not UTF-8. -/
  notText : String.fromUTF8? bytes.toByteArray = none

namespace RawName

/-- The name as it is shown, with U+FFFD for what is not UTF-8. -/
def shown (name : RawName) : String :=
  Text.decodeLossy name.bytes.toByteArray

/-- The byte of a dot. -/
def dot : UInt8 := 46

/-- The bytes behind the last dot, unless that starts the name. -/
def extension? (name : RawName) : Option (List UInt8) :=
  (Path.splitName dot name.bytes).2

/-- The name without its extension, as it is shown. -/
def stem (name : RawName) : String :=
  Text.decodeLossy (Path.splitName dot name.bytes).1.toByteArray

end RawName

/-- The name of an entry of a directory. -/
inductive EntryName
  | text (name : String)
  | raw (name : RawName)

namespace EntryName

/-- The bytes of a name. -/
def bytes : EntryName -> List UInt8
  | .text name => Text.bytes name
  | .raw name => name.bytes

/-- A name as it is shown. -/
def shown : EntryName -> String
  | .text name => name
  | .raw name => name.shown

/-- Names are in the order of their bytes. -/
instance : LE EntryName where
  le name other := name.bytes ≤ other.bytes

instance : LT EntryName where
  lt name other := name.bytes < other.bytes

instance : DecidableLE EntryName := fun name other =>
  inferInstanceAs (Decidable (name.bytes ≤ other.bytes))

end EntryName

/-- A path through an entry whose name is no text. -/
structure RawPath where
  /-- The directory of the entry. -/
  dir : Path
  /-- The name of the entry. -/
  name : RawName
  /-- What the path leads to in the entry, if it is not the entry itself. -/
  inside : Option String

/-- The path as it is shown. -/
def RawPath.shown (path : RawPath) : Path :=
  let entry := path.dir.join path.name.shown
  match path.inside with
  | none => entry
  | some name => entry.join name

/-- A path to an entry of a directory, or to something in it. -/
inductive EntryPath
  | text (path : Path)
  | raw (path : RawPath)

/-- A path as it is shown. -/
def EntryPath.shown : EntryPath -> Path
  | .text path => path
  | .raw path => path.shown

namespace Path

/-- The path of an entry. -/
def entry
    (dir : Path) : EntryName -> EntryPath
  | .text name => .text (dir.join name)
  | .raw name => .raw ⟨dir, name, none⟩

/-- The path of what has a name in an entry. -/
def inEntry
    (dir : Path)
    (name : EntryName)
    (inside : String) : EntryPath :=
  match name with
  | .text name => .text ((dir.join name).join inside)
  | .raw name => .raw ⟨dir, name, some inside⟩

end Path
end LockBench
