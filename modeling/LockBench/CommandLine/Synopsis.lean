import LockBench.CommandLine.Form

/-!
# Help pages

A help page lists what a command takes.  Names and summaries stand side by
side as long as the names leave enough room for the summaries; otherwise each
summary stands on a line of its own.
-/

namespace LockBench
namespace CommandLine

/-- One line of a list. -/
structure Row where
  /-- What stands before the name. -/
  lead : Markup := []
  /-- The name. -/
  name : Markup
  /-- What it is for. -/
  summary : String
  /-- What it is for, on a long page, if that says something else. -/
  details : Option String := none

/-- How a list is set. -/
inductive Arrangement
  /-- Names and summaries side by side. -/
  | beside
  /-- Summaries below their names. -/
  | below
  /-- Summaries below their names, and an empty line between them. -/
  | spaced
  deriving DecidableEq, Repr

namespace Row

/-- Space of some width. -/
def gap (width : Nat) : String :=
  String.ofList (List.replicate width ' ')

/-- The greatest width of a name. -/
def widest (rows : List Row) : Nat :=
  (rows.map fun row => row.name.width).foldl max 0

/-- A row, its summary beside names of some width or below its name. -/
def markup
    (arrangement : Arrangement)
    (width : Nat)
    (row : Row) : Markup :=
  let label := Markup.plain "  " ++ row.lead ++ row.name
  match arrangement with
  | .beside =>
    label ++ Markup.plain
      (gap (width + 2 - row.name.width) ++ row.summary ++ "\n")
  | _ => label ++ Markup.plain ("\n" ++ gap 10 ++ row.summary ++ "\n")

/-- A row as a long page shows it. -/
def expanded (row : Row) : Row :=
  { row with summary := row.details.getD row.summary }

/-- The width of a page. -/
def pageWidth : Nat := 100

/-- The arrangement of a list: summaries go below where the names take more
than two fifths of the page and a summary does not fit into the rest. -/
def arrangement (rows : List Row) : Arrangement :=
  let taken := widest rows + 12
  if pageWidth * 2 < taken * 5 ∧ taken ≤ pageWidth ∧
      rows.any (fun row => pageWidth - taken < row.summary.length) then
    .below
  else .beside

/-- A list under its heading, unless it is empty. -/
def listing
    (heading : String)
    (arrangement : Arrangement)
    (rows : List Row) : Markup :=
  let separator : Markup := match arrangement with
    | .spaced => Markup.plain "\n"
    | _ => []
  if rows.isEmpty then []
  else
    [(.plain, "\n"), (.heading, heading ++ ":"), (.plain, "\n")] ++
      separator.intercalate (rows.map (markup arrangement (widest rows)))

end Row

/-- What a help page says. -/
structure Synopsis where
  /-- The program and the names of the subcommands that lead here. -/
  path : String
  /-- What the command is for. -/
  about : String
  /-- More on what it is for, if there is more to say. -/
  details : Option String := none
  /-- What may stand after the path. -/
  pattern : String
  /-- The subcommands. -/
  commands : List Row := []
  /-- The operands. -/
  operands : List Row := []
  /-- The flags. -/
  flags : List Row := []

namespace Synopsis

/-- The usage line. -/
def usage (synopsis : Synopsis) : Markup :=
  [(.heading, "Usage:"), (.plain, " "), (.literal, synopsis.path),
    (.plain, synopsis.pattern)]

/-- A page that opens with a text, and the arrangement of its lists of
operands and flags. -/
def pageFrom
    (synopsis : Synopsis)
    (opening : String)
    (arrange : List Row -> Arrangement) : Markup :=
  Markup.plain (opening ++ "\n\n") ++ synopsis.usage ++ Markup.plain "\n" ++
    Row.listing "Commands" .beside synopsis.commands ++
    Row.listing "Arguments" (arrange synopsis.operands) synopsis.operands ++
    Row.listing "Options" (arrange synopsis.flags) synopsis.flags

/-- A help page, in its long form or in its short one.  The two differ only
where there is more to say in the long one. -/
def page
    (synopsis : Synopsis)
    (long : Bool) : Markup :=
  match long, synopsis.details with
  | true, some details =>
    { synopsis with
      operands := synopsis.operands.map Row.expanded
      flags := synopsis.flags.map Row.expanded }.pageFrom details
        fun _ => .spaced
  | _, _ => synopsis.pageFrom synopsis.about Row.arrangement

end Synopsis

/-- A flag as a line of a list. -/
def Flag.row (flag : Flag σ) : Row where
  lead :=
    match flag.letter with
    | some letter =>
      [(.literal, "-" ++ String.singleton letter), (.plain, ", ")]
    | none => Markup.plain "    "
  name := [(.literal, "--" ++ flag.name), (.plain, flag.suffix)]
  summary := flag.summary
  details := flag.details

/-- An operand as a line of a list. -/
def Operand.row (operand : Operand σ) : Row where
  name := Markup.plain operand.display
  summary := operand.summary

/-- What may stand after the name of a command. -/
def Form.pattern
    (form : Form κ σ)
    (commandNeeded : Bool) : String :=
  " [OPTIONS]" ++
    String.join (form.operands.map fun operand => " " ++ operand.display) ++
    if form.commands.isEmpty then ""
    else if commandNeeded then " <COMMAND>"
    else " [COMMAND]"

end CommandLine
end LockBench
