import LockBench.Text.Visible

/-!
# Marked text

What the command line says about itself is a sequence of stretches, each with
the role that it plays.  A terminal shows the roles by control sequences;
elsewhere these are left out, and with them those of the words themselves.
-/

namespace LockBench
namespace CommandLine

/-- The role of a stretch of text. -/
inductive Role
  | plain
  /-- A heading. -/
  | heading
  /-- What is typed as it stands. -/
  | literal
  /-- The word that announces an error. -/
  | alarm
  /-- What was refused. -/
  | refused
  deriving DecidableEq, Repr

/-- The sequences that select the look of a role, one for every property. -/
def Role.select : Role -> String
  | .plain => ""
  | .heading => "\x1b[1m\x1b[4m"
  | .literal => "\x1b[1m"
  | .alarm => "\x1b[1m\x1b[31m"
  | .refused => "\x1b[33m"

/-- The sequence that ends the look of a role. -/
def Role.reset : Role -> String
  | .plain => ""
  | _ => "\x1b[0m"

/-- A text with the roles of its stretches. -/
abbrev Markup := List (Role × String)

namespace Markup

/-- A text without a role. -/
def plain (text : String) : Markup := [(.plain, text)]

/-- A text in a role, between quotes. -/
def quoted
    (role : Role)
    (text : String) : Markup :=
  [(.plain, "'"), (role, text), (.plain, "'")]

/-- The words alone. -/
def words (markup : Markup) : String :=
  String.join (markup.map Prod.snd)

/-- The number of characters of the words. -/
def width (markup : Markup) : Nat :=
  markup.words.length

/-- A text with the sequences that select and end its looks. -/
def styled (markup : Markup) : String :=
  String.join (markup.map fun (role, text) =>
    role.select ++ text ++ role.reset)

/-- A text as it is written: with its looks, or what is seen of it where looks
are off. -/
def shown
    (colored : Bool)
    (markup : Markup) : String :=
  if colored then markup.styled else Text.visible markup.styled

@[simp] theorem shown_true (markup : Markup) :
    markup.shown true = markup.styled := rfl

@[simp] theorem shown_false (markup : Markup) :
    markup.shown false = Text.visible markup.styled := rfl

end Markup
end CommandLine
end LockBench
