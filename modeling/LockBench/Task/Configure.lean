import LockBench.Failure
import LockBench.Journal

/-!
# Showing and changing the configuration

A value that cannot be set leaves the file as it was.
-/

namespace LockBench

/-- What may be done with the configuration. -/
inductive ConfigureTask
  /-- Print everything that is set. -/
  | showAll
  /-- Print where the file is. -/
  | showPath
  /-- Print one value. -/
  | get (key : String)
  /-- Set one value and save the file. -/
  | set (key value : String)
  deriving DecidableEq, Repr

namespace ConfigureTask

/-- Everything that is set, a line each. -/
def listing
    (colored : Bool)
    (verbosity : Nat)
    (config : Config) : String :=
  (Style.mk true (some .green)).paint colored "Configuration:" ++ "\n" ++
    if config.isEmpty then
      if 0 < verbosity then
        "  " ++ (Style.mk false (some .yellow)).paint colored "(empty)" ++ "\n"
      else ""
    else
      String.join (config.values.map fun (name, value) =>
        "  " ++ (Style.mk false (some .cyan)).paint colored name ++ ": " ++
          value ++ "\n")

/-- Set one value and save the file. -/
def update
    (journal : Journal)
    (key value : String) : Attempt Unit := do
  let config ← Attempt.lift .config Config.load
  match config.update key value with
  | .error refusal => throw (.config (.refused refusal))
  | .ok changed =>
    let path ← Attempt.lift .config changed.save
    journal.note (.success ("Set " ++ key ++ " = " ++ value))
    journal.note (.debug ("Saved config to " ++ path.text))

/-- Do something with the configuration. -/
def perform
    (journal : Journal)
    (verbosity : Nat) : ConfigureTask -> Attempt Unit
  | .showAll => do
    let config ← Attempt.lift .config Config.load
    Action.print (listing journal.colored verbosity config)
  | .showPath => do
    let path ← Attempt.lift .config Config.path?
    journal.note (.debug ("Config path resolved to: " ++ path.text))
    Action.print (path.text ++ "\n")
  | .get key => do
    let config ← Attempt.lift .config Config.load
    match config.lookup key with
    | some value => Action.print (value ++ "\n")
    | none => journal.note (.warn (key ++ " is not set"))
  | .set key value => update journal key value

end ConfigureTask
end LockBench
