import LockBench.CommandLine.Commands

/-!
# Topics of help

Every command is a topic.  A topic is found by the names that lead to it.
-/

namespace LockBench
namespace CommandLine

/-- What help may be asked about. -/
inductive Topic
  | program
  | command (command : ProgramCommand)
  | configCommand (command : ConfigCommand)
  deriving DecidableEq, Repr

namespace Topic

/-- The name of the program. -/
def programName : String := "bench-ripenv"

/-- What the subcommand for help is for. -/
def helpAbout : String :=
  "Print this message or the help of the given subcommand(s)"

/-- What a command is for. -/
def about : Topic -> String
  | .program => "Benchmark ripenv vs pipenv vs uv"
  | .command .run => "Run benchmarks against a fixture"
  | .command .translate => "Translate a Pipfile into a pyproject.toml"
  | .command .report => "Summarize exported hyperfine results"
  | .command .config => "Configure bench-ripenv"
  | .configCommand .showAll => "Print every configured value"
  | .configCommand .showPath => "Print the config file location"
  | .configCommand .get => "Print one value"
  | .configCommand .set => "Set one value and save the file"
  | .command .help => helpAbout
  | .configCommand .help => helpAbout

/-- The topics below a topic, by name. -/
def children : Topic -> List (String × Topic)
  | .program =>
    programCommands.map fun entry => (entry.1, .command entry.2)
  | .command .config =>
    configCommands.map fun entry => (entry.1, .configCommand entry.2)
  | _ => []

/-- The topic that names lead to from another one. -/
def follow
    (topic : Topic) : List String -> Except UsageError Topic
  | [] => .ok topic
  | name :: rest =>
    match topic.children.lookup name with
    | some child => child.follow rest
    | none => .error (.unknownCommand name)

/-- The page of a command that takes what a form says. -/
def formSynopsis
    (topic : Topic)
    (path : String)
    (form : Form κ σ)
    (commandNeeded : Bool) : Synopsis where
  path
  about := topic.about
  pattern := form.pattern commandNeeded
  commands := topic.children.map fun (name, child) =>
    { name := [(.literal, name)], summary := child.about }
  operands := form.operands.map Operand.row
  flags := form.flags.map Flag.row

/-- The page of the subcommand for help. -/
def helpSynopsis (path : String) : Synopsis where
  path
  about := helpAbout
  pattern := " [COMMAND]..."
  operands :=
    [{ name := Markup.plain "[COMMAND]..."
       summary := "Print help for the subcommand(s)" }]

/-- The page of a topic. -/
def synopsis : Topic -> Synopsis
  | .program =>
    { formSynopsis .program programName programForm true with
      details := some ("Times lock, sync and install for ripenv, pipenv and " ++
        "uv under cold, warm and no-op cache states using hyperfine.") }
  | .command .run =>
    formSynopsis (.command .run) "bench-ripenv run" runForm false
  | .command .translate =>
    formSynopsis (.command .translate) "bench-ripenv translate"
      translateForm false
  | .command .report =>
    formSynopsis (.command .report) "bench-ripenv report" reportForm false
  | .command .config =>
    formSynopsis (.command .config) "bench-ripenv config" configForm false
  | .configCommand .showAll =>
    formSynopsis (.configCommand .showAll) "bench-ripenv config show"
      plainForm false
  | .configCommand .showPath =>
    formSynopsis (.configCommand .showPath) "bench-ripenv config path"
      plainForm false
  | .configCommand .get =>
    formSynopsis (.configCommand .get) "bench-ripenv config get" getForm false
  | .configCommand .set =>
    formSynopsis (.configCommand .set) "bench-ripenv config set" setForm false
  | .command .help => helpSynopsis "bench-ripenv help"
  | .configCommand .help => helpSynopsis "bench-ripenv config help"

end Topic
end CommandLine
end LockBench
