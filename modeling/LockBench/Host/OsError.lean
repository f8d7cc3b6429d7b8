/-!
# Errors of the operating system

Each cause has the text under which it is reported.
-/

namespace LockBench

/-- Why the operating system or a read of its files refused a request. -/
inductive OsError
  | noSuchFile
  | permissionDenied
  | fileExists
  | notADirectory
  | isADirectory
  | nameTooLong
  /-- A file that should be text is not UTF-8. -/
  | notText
  /-- What should be copied is not a regular file. -/
  | notRegular
  /-- A path holds a NUL character. -/
  | nulInPath
  /-- An argument of a process holds a NUL character. -/
  | nulInArgument
  /-- The request is not served by this host. -/
  | unsupported
  /-- Any other cause, by its own text. -/
  | other (text : String)
  deriving DecidableEq, Repr

namespace OsError

/-- The text of a numbered cause. -/
def numbered
    (text : String)
    (number : Nat) : String :=
  text ++ " (os error " ++ toString number ++ ")"

/-- The text under which a cause is reported. -/
def message : OsError -> String
  | .noSuchFile => numbered "No such file or directory" 2
  | .permissionDenied => numbered "Permission denied" 13
  | .fileExists => numbered "File exists" 17
  | .notADirectory => numbered "Not a directory" 20
  | .isADirectory => numbered "Is a directory" 21
  | .nameTooLong => numbered "File name too long" 36
  | .notText => "stream did not contain valid UTF-8"
  | .notRegular =>
    "the source path is neither a regular file nor a symlink to a regular file"
  | .nulInPath => "file name contained an unexpected NUL byte"
  | .nulInArgument => "nul byte found in provided data"
  | .unsupported => "operation not supported on this platform"
  | .other text => text

end OsError
end LockBench
