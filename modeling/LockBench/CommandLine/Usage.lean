import LockBench.CommandLine.Markup

/-!
# Usage errors
-/

namespace LockBench
namespace CommandLine

/-- Why a command line is refused. -/
inductive UsageError
  | unknownArgument (text : String)
  | unknownCommand (text : String)
  | missingCommand (program : String)
  | missingValue (argument : String)
  | invalidValue (value argument reason : String)
  /-- A value was given to a flag that takes none. -/
  | surplusValue (value argument : String)
  | repeated (argument : String)
  | conflict (argument other : String)
  | missingArguments (arguments : List String)
  deriving DecidableEq, Repr

namespace UsageError

open Markup (plain quoted)

/-- What is wrong, in one line. -/
def headline : UsageError -> Markup
  | .unknownArgument text =>
    plain "unexpected argument " ++ quoted .refused text ++ plain " found"
  | .unknownCommand text =>
    plain "unrecognized subcommand " ++ quoted .refused text
  | .missingCommand program =>
    quoted .refused program ++
      plain " requires a subcommand but one was not provided"
  | .missingValue argument =>
    plain "a value is required for " ++ quoted .refused argument ++
      plain " but none was supplied"
  | .invalidValue value argument reason =>
    plain "invalid value " ++ quoted .refused value ++ plain " for " ++
      quoted .literal argument ++ plain (": " ++ reason)
  | .surplusValue value argument =>
    plain "unexpected value " ++ quoted .refused value ++ plain " for " ++
      quoted .literal argument ++ plain " found; no more were expected"
  | .repeated argument =>
    plain "the argument " ++ quoted .refused argument ++
      plain " cannot be used multiple times"
  | .conflict argument other =>
    plain "the argument " ++ quoted .refused argument ++
      plain " cannot be used with " ++ quoted .refused other
  | .missingArguments _ =>
    plain "the following required arguments were not provided:"

/-- What follows the headline: the arguments that are missing, a line
each. -/
def particulars : UsageError -> Markup
  | .missingArguments arguments =>
    arguments.map fun argument => (.plain, "\n  " ++ argument)
  | _ => []

/-- Whether the usage line of the command is shown.  It would not help where
only a value is wrong. -/
def showsUsage : UsageError -> Bool
  | .missingValue _ => false
  | .invalidValue _ _ _ => false
  | _ => true

/-- The text under which a refused command line is reported, with the usage
line of the command. -/
def report
    (error : UsageError)
    (usage : Markup) : Markup :=
  [(.alarm, "error:"), (.plain, " ")] ++ error.headline ++
    error.particulars ++
    (if error.showsUsage then plain "\n\n" ++ usage else []) ++
    plain "\n\nFor more information, try " ++ quoted .literal "--help" ++
    plain ".\n"

end UsageError
end CommandLine
end LockBench
