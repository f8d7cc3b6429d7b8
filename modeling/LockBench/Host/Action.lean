import LockBench.Host.EntryName
import LockBench.Host.OsError
import LockBench.Host.Process

/-!
# Actions on a host

What the library does to the world around it is a tree of requests, each with
a continuation for every answer.  Nothing in the tree fixes how a host
answers: the same action runs on an in-memory machine, on a real system, or on
a host that a statement quantifies over.
-/

namespace LockBench

/-- What a path leads to. -/
inductive Kind
  | file (executable : Bool)
  | directory
  deriving DecidableEq, Repr

/-- What may be asked of a host. -/
inductive Request
  /-- The value of an environment variable. -/
  | variable (name : String)
  /-- The directory that relative paths start from. -/
  | workingDir
  /-- What a path leads to, if it leads anywhere. -/
  | kind (path : Path)
  /-- What a path through an entry without a text for a name leads to. -/
  | rawKind (path : RawPath)
  /-- The content of a file. -/
  | read (path : Path)
  /-- The content of a file at a path through such an entry. -/
  | rawRead (path : RawPath)
  /-- Replace the content of a file, making it if it is not there. -/
  | write (path : Path) (content : ByteArray)
  /-- Add to the end of a file, making it if it is not there. -/
  | append (path : Path) (content : ByteArray)
  /-- Replace one file's content by another's. -/
  | copy (source target : Path)
  /-- Make a directory and those above it that are missing. -/
  | makeDirs (path : Path)
  /-- The names of the entries of a directory, in no particular order. -/
  | entries (path : Path)
  /-- Remove a file. -/
  | removeFile (path : Path)
  /-- Make a directory with a fresh name that starts with a stem. -/
  | makeFreshDir (parent : Path) (stem : String)
  /-- Remove a directory and all that is in it. -/
  | removeTree (path : Path)
  /-- Run a process to its end and keep what it writes. -/
  | capture (launch : Launch)
  /-- Run a process to its end and let it write to the console. -/
  | attend (launch : Launch)
  /-- The date and time of day. -/
  | clock
  /-- Write to the standard output. -/
  | print (text : String)
  /-- Write to the standard error. -/
  | printError (text : String)

/-- What a host answers to a request. -/
def Request.Answer : Request -> Type
  | .variable _ => Option String
  | .workingDir => Path
  | .kind _ => Option Kind
  | .rawKind _ => Option Kind
  | .read _ => Except OsError ByteArray
  | .rawRead _ => Except OsError ByteArray
  | .write _ _ => Except OsError Unit
  | .append _ _ => Except OsError Unit
  | .copy _ _ => Except OsError Unit
  | .makeDirs _ => Except OsError Unit
  | .entries _ => Except OsError (List EntryName)
  | .removeFile _ => Except OsError Unit
  | .makeFreshDir _ _ => Except OsError Path
  | .removeTree _ => Unit
  | .capture _ => Except OsError Captured
  | .attend _ => Except OsError Exit
  | .clock => String
  | .print _ => Unit
  | .printError _ => Unit

/-- A tree of requests that ends in a result. -/
inductive Action (α : Type) : Type
  | done (result : α)
  | ask (request : Request) (next : request.Answer -> Action α)

namespace Action

/-- Continue an action with its result. -/
def bind
    (action : Action α)
    (next : α -> Action β) : Action β :=
  match action with
  | .done result => next result
  | .ask request continuation =>
    .ask request fun answer => (continuation answer).bind next

instance : Monad Action where
  pure := .done
  bind := .bind

/-- Run an action, each request answered in a monad. -/
def interpret
    [Monad m]
    (answer : (request : Request) -> m request.Answer) : Action α -> m α
  | .done result => pure result
  | .ask request next => do
    let given ← answer request
    (next given).interpret answer

@[simp] theorem interpret_pure
    [Monad m]
    (answer : (request : Request) -> m request.Answer)
    (result : α) :
    interpret answer (pure result : Action α) = pure result := rfl

theorem bind_done (action : Action α) : action.bind .done = action := by
  induction action with
  | done result => rfl
  | ask request next inductionHypothesis =>
      simp only [bind, inductionHypothesis]

theorem bind_bind
    (action : Action α)
    (first : α -> Action β)
    (second : β -> Action γ) :
    (action.bind first).bind second =
      action.bind fun result => (first result).bind second := by
  induction action with
  | done result => rfl
  | ask request next inductionHypothesis =>
      simp only [bind, inductionHypothesis]

instance : LawfulMonad Action := LawfulMonad.mk' Action
  (fun action => bind_done action)
  (fun _ _ => rfl)
  (fun action first second => bind_bind action first second)

/-- Answering requests one by one respects continuation. -/
theorem interpret_bind
    [Monad m]
    [LawfulMonad m]
    (answer : (request : Request) -> m request.Answer)
    (action : Action α)
    (next : α -> Action β) :
    interpret answer (action >>= next) =
      interpret answer action >>= fun result =>
        interpret answer (next result) := by
  change interpret answer (action.bind next) = _
  induction action with
  | done result => simp [bind, interpret]
  | ask request continuation inductionHypothesis =>
      simp [bind, interpret, inductionHypothesis]

/-- Ask a host one thing. -/
def request (request : Request) : Action request.Answer :=
  .ask request .done

/-! ## Single requests -/

/-- The value of an environment variable. -/
def environment (name : String) : Action (Option String) :=
  request (.variable name)

/-- The directory that relative paths start from. -/
def workingDir : Action Path :=
  request .workingDir

/-- What a path leads to, if it leads anywhere. -/
def kind? (path : Path) : Action (Option Kind) :=
  request (.kind path)

/-- What the path of an entry leads to, if it leads anywhere. -/
def kindAt? : EntryPath -> Action (Option Kind)
  | .text path => kind? path
  | .raw path => request (.rawKind path)

/-- Whether a path leads anywhere. -/
def pathExists (path : Path) : Action Bool := do
  return (← kind? path).isSome

/-- Whether the path of an entry leads to a regular file. -/
def isFileAt (path : EntryPath) : Action Bool := do
  match ← kindAt? path with
  | some (.file _) => return true
  | _ => return false

/-- Whether a path leads to a regular file. -/
def isFile (path : Path) : Action Bool :=
  isFileAt (.text path)

/-- The content of a file. -/
def read (path : Path) : Action (Except OsError ByteArray) :=
  request (.read path)

/-- The content of a file that is an entry. -/
def readAt : EntryPath -> Action (Except OsError ByteArray)
  | .text path => read path
  | .raw path => request (.rawRead path)

/-- The content of a file that is an entry, as text. -/
def readTextAt (path : EntryPath) : Action (Except OsError String) := do
  match ← readAt path with
  | .error cause => return .error cause
  | .ok content =>
    match String.fromUTF8? content with
    | some text => return .ok text
    | none => return .error .notText

/-- The content of a file as text. -/
def readText (path : Path) : Action (Except OsError String) :=
  readTextAt (.text path)

/-- Replace the content of a file by a text. -/
def writeText
    (path : Path)
    (text : String) : Action (Except OsError Unit) :=
  request (.write path text.toUTF8)

/-- Add a text to the end of a file. -/
def appendText
    (path : Path)
    (text : String) : Action (Except OsError Unit) :=
  request (.append path text.toUTF8)

/-- Replace one file's content by another's. -/
def copy
    (source target : Path) : Action (Except OsError Unit) :=
  request (.copy source target)

/-- Make a directory and those above it that are missing. -/
def makeDirs (path : Path) : Action (Except OsError Unit) :=
  request (.makeDirs path)

/-- The names of the entries of a directory. -/
def entries (path : Path) : Action (Except OsError (List EntryName)) :=
  request (.entries path)

/-- Remove a file. -/
def removeFile (path : Path) : Action (Except OsError Unit) :=
  request (.removeFile path)

/-- Make a directory with a fresh name that starts with a stem. -/
def makeFreshDir
    (parent : Path)
    (stem : String) : Action (Except OsError Path) :=
  request (.makeFreshDir parent stem)

/-- Remove a directory and all that is in it. -/
def removeTree (path : Path) : Action Unit :=
  request (.removeTree path)

/-- Run a process to its end and keep what it writes. -/
def capture (launch : Launch) : Action (Except OsError Captured) :=
  request (.capture launch)

/-- Run a process to its end and let it write to the console. -/
def attend (launch : Launch) : Action (Except OsError Exit) :=
  request (.attend launch)

/-- The date and time of day. -/
def clock : Action String :=
  request .clock

/-- Write to the standard output. -/
def print (text : String) : Action Unit :=
  request (.print text)

/-- Write to the standard error. -/
def printError (text : String) : Action Unit :=
  request (.printError text)

end Action
end LockBench
