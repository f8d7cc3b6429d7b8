/-!
# Lines of a text

A line ends at a line feed, and a carriage return directly before that line
feed belongs to the ending.  A last line without a line feed is a line unless
it is empty.
-/

namespace LockBench
namespace Text

/-- A line without the carriage return that ends it, if one does. -/
def dropReturn (line : List Char) : List Char :=
  if line.getLast? = some '\r' then line.dropLast else line

/-- Split at line feeds, given the characters of the current line in reverse. -/
def linesFrom (current : List Char) : List Char -> List (List Char)
  | [] => if current.isEmpty then [] else [current.reverse]
  | '\n' :: rest => dropReturn current.reverse :: linesFrom [] rest
  | c :: rest => linesFrom (c :: current) rest

/-- The lines of a text, without their endings. -/
def lines (chars : List Char) : List (List Char) :=
  linesFrom [] chars

@[simp] theorem lines_nil : lines [] = [] := rfl

end Text
end LockBench
